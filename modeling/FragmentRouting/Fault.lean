import FragmentRouting.Charset.Basic
import FragmentRouting.Json.Flaw
import FragmentRouting.Number.Numeral
import FragmentRouting.Pattern.Flaw
import FragmentRouting.Template.Piece
import FragmentRouting.Value.Basic
import FragmentRouting.Yaml.Basic

namespace FragmentRouting

/-- Why a query cannot be read. -/
inductive QueryFlaw where
  | badEscape (offset : Nat) (text : Text)
  | undecodable (text : Text) (cause : Charset.Undecodable)
  | notJson (key : Text) (flaw : Json.Flaw)
  deriving DecidableEq, Repr

def QueryFlaw.message : QueryFlaw → Text
  | .badEscape offset text =>
    "Invalid percent escape at offset ".toList ++ Text.ofNat offset ++ " in ".toList ++ text.quoted
  | .undecodable text cause =>
    "Undecodable escape in ".toList ++ text.quoted ++ ": ".toList ++ cause.reason
  | .notJson key flaw =>
    "Value for ".toList ++ key.quoted ++ " is not valid JSON: ".toList ++ flaw.reason

inductive HostFlaw where
  | openStart
  | openEnd
  /-- It does not hold the shape of a kind of token as often as the template has such tokens. -/
  | shapeCount (kind : Template.TokenKind) (shape : Text) (expected found : Nat)
  deriving DecidableEq, Repr

def HostFlaw.problem (source : Text) : HostFlaw → Text
  | .openStart =>
    "expected the pattern to start with '^', got ".toList ++ Text.quoted (source.take 8)
  | .openEnd =>
    "expected the pattern to end with '$', got ".toList ++
      Text.quoted (source.drop (source.length - 8))
  | .shapeCount kind shape expected found =>
    "expected ".toList ++ Text.ofNat expected ++ [' '] ++ kind.name ++
      " sub-pattern(s) of shape ".toList ++ shape.quoted ++ ", found ".toList ++ Text.ofNat found

/-- A failure, by its cause. Values in it are given as diagnostics show them. -/
inductive Fault where
  /-- An integer has too many digits to be written. -/
  | overlongInteger
  /-- A numeral has too many digits to be read. -/
  | overlongNumeral (digits : Nat)
  /-- A parameter's value is a map. -/
  | nestedValue (key : Text)
  | unsuffixableKey (kind : Value.Kind)
  /-- A key that is not a text cannot be quoted in an encoding. -/
  | unquotableKey
  /-- A key that is neither a text nor bytes cannot be quoted. -/
  | unquotableValue
  | unknownEncoding (name : Text)
  /-- The name of an encoding holds a null character. -/
  | nullInName
  | encodingKind (decoding : Bool) (kind : Value.Kind)
  | unencodable (flaw : Charset.Unencodable)
  | notJsonValue (kind : Value.Kind)
  | notJsonKey (kind : Value.Kind)
  | unjoinable (kind : Value.Kind)
  | unsearchable (kind : Value.Kind)
  /-- A query is malformed; it is kept without its leading question mark. -/
  | malformedQuery (flaw : QueryFlaw) (query : Text)
  | unknownCodec (name : Text) (available : List Text)
  | unhashable (kind : Value.Kind)
  | patternSyntax (fault : Pattern.SyntaxFault)
  | unfitHost (flaw : HostFlaw) (template source : Text)
  | jsonSyntax (flaw : Json.Flaw) (document : Text) (position : Nat)
  | jsonNesting (container : Json.Container)
  /-- A value is nested too deep to be written as JSON. -/
  | overdeepValue
  | yaml (flaw : Yaml.Flaw)
  | noEntries (kind : Value.Kind)
  | notIterable (kind : Value.Kind)
  /-- An item of an update has no items itself. -/
  | notAnEntry (index : Nat)
  | entryLength (index length : Nat)
  | noSuchFile (name : Text)
  /-- An exception of code beside the library, by the name of its class and its text. -/
  | outside (name message : Text)
  deriving DecidableEq, Repr

def quotedKind (kind : Value.Kind) : Text := '\'' :: (kind.name ++ ['\''])

def limitAdvice : Text :=
  "; use sys.set_int_max_str_digits() to increase the limit".toList

def overlongText (digits : Nat) : Text :=
  "Exceeds the limit (".toList ++ Text.ofNat digitLimit ++
    " digits) for integer string conversion: value has ".toList ++ Text.ofNat digits ++
    " digits".toList ++ limitAdvice

def nestingText : Text := "maximum recursion depth exceeded".toList

/-- How much of a text that spells no integer is shown. -/
def shownNumeral : Nat := 200

/-- The flaw of a YAML document in words, none for one that is malformed. -/
def yamlText : Yaml.Flaw → Text
  | .malformed => []
  | .tooDeep => nestingText
  | .notInteger base numeral =>
    "invalid literal for int() with base ".toList ++ Text.ofNat base ++ ": ".toList ++
      (Text.quotedCodes numeral).take shownNumeral
  | .overlong digits => overlongText digits
  | .notFloat numeral =>
    "could not convert string to float: ".toList ++ Text.quotedCodes numeral
  | .floatOverflow => "int too large to convert to float".toList
  | .emptyNumber => "string index out of range".toList
  | .notBool word => Text.quotedCodes word
  | .badTime flaw => flaw.message
  | .notTimestamp => "'NoneType' object has no attribute 'groupdict'".toList
  | .compositeTimestamp => "expected string or bytes-like object, got 'list'".toList
  | .badEscape => "chr() arg not in range(0x110000)".toList
  | .hugeEscape => "Python int too large to convert to C int".toList

def Fault.message : Fault → Text
  | .overlongInteger =>
    "Exceeds the limit (".toList ++ Text.ofNat digitLimit ++
      " digits) for integer string conversion".toList ++ limitAdvice
  | .overlongNumeral digits => overlongText digits
  | .nestedValue key => "Nested value for key ".toList ++ key ++ " is not supported".toList
  | .unsuffixableKey .bytes => "can't concat str to bytes".toList
  | .unsuffixableKey .tuple => "can only concatenate tuple (not \"str\") to tuple".toList
  | .unsuffixableKey kind =>
    "unsupported operand type(s) for +: ".toList ++ quotedKind kind ++ " and 'str'".toList
  | .unquotableKey => "quote() doesn't support 'encoding' for bytes".toList
  | .unquotableValue => "quote_from_bytes() expected bytes".toList
  | .unknownEncoding name => "unknown encoding: ".toList ++ name
  | .nullInName => "embedded null character".toList
  | .encodingKind true kind =>
    "decode() argument 'encoding' must be str, not ".toList ++ kind.name
  | .encodingKind false kind =>
    "encode() argument 'encoding' must be str, not ".toList ++ kind.name
  | .unencodable flaw =>
    let subject := match flaw.codes with
      | [n] => "character '".toList ++ Text.escapeCodePoint n ++
          "' in position ".toList ++ Text.ofNat flaw.position
      | run => "characters in position ".toList ++ Text.ofNat flaw.position ++ ['-'] ++
          Text.ofNat (flaw.position + run.length - 1)
    ['\''] ++ flaw.charset.codecName ++ "' codec can't encode ".toList ++ subject ++
      ": ".toList ++ flaw.reason
  | .notJsonValue kind =>
    "Object of type ".toList ++ kind.name ++ " is not JSON serializable".toList
  | .notJsonKey kind =>
    "keys must be str, int, float, bool or None, not ".toList ++ kind.name
  | .unjoinable .bytes =>
    "sequence item 0: expected a bytes-like object, str found".toList
  | .unjoinable kind => quotedKind kind ++ " object has no attribute 'join'".toList
  | .unsearchable kind =>
    "'in <string>' requires string as left operand, not ".toList ++ kind.name
  | .malformedQuery flaw _ => flaw.message
  | .unknownCodec name available =>
    "Unknown querystring codec: ".toList ++ name ++ " (available: ".toList ++
      Text.joinWith ", ".toList available ++ [')']
  | .unhashable kind => "unhashable type: ".toList ++ quotedKind kind
  | .patternSyntax fault => fault.message
  | .unfitHost flaw template source =>
    "Host regex for route ".toList ++ template.quoted ++ " is not rewritable: ".toList ++
      flaw.problem source ++ " in ".toList ++ source.quoted
  | .jsonSyntax flaw document position => flaw.message document position
  | .jsonNesting container =>
    nestingText ++ " while decoding a JSON ".toList ++ container.name ++
      " from a unicode string".toList
  | .overdeepValue => nestingText ++ " while encoding a JSON object".toList
  | .yaml flaw => yamlText flaw
  | .noEntries kind => quotedKind kind ++ " object has no attribute 'items'".toList
  | .notIterable kind => quotedKind kind ++ " object is not iterable".toList
  | .notAnEntry index =>
    "cannot convert dictionary update sequence element #".toList ++ Text.ofNat index ++
      " to a sequence".toList
  | .entryLength index length =>
    "dictionary update sequence element #".toList ++ Text.ofNat index ++ " has length ".toList ++
      Text.ofNat length ++ "; 2 is required".toList
  | .noSuchFile name => "[Errno 2] No such file or directory: ".toList ++ name.quoted
  | .outside _ message => message

end FragmentRouting
