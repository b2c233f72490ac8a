import FragmentRouting.Pattern.Match

namespace FragmentRouting.Yaml

inductive Tag where
  | null
  | bool
  | int
  | float
  | timestamp
  | str
  | binary
  | seq
  | map
  | pairs
  | set
  | merge
  | value
  | unknown
  deriving DecidableEq, Repr

def standardAddress : Text := "tag:yaml.org,2002:".toList

def standardTags : List (Text × Tag) := [
  ("null".toList, .null), ("bool".toList, .bool), ("int".toList, .int), ("float".toList, .float),
  ("timestamp".toList, .timestamp), ("str".toList, .str), ("binary".toList, .binary),
  ("seq".toList, .seq), ("map".toList, .map), ("omap".toList, .pairs), ("pairs".toList, .pairs),
  ("set".toList, .set), ("merge".toList, .merge), ("value".toList, .value)]

def Tag.ofAddress (address : Text) : Tag :=
  match standardAddress.isPrefixOf? address with
  | some name => ((standardTags.find? (·.1 == name)).map (·.2)).getD .unknown
  | none => .unknown

/-- The form of a type of plain scalar: the characters that it may start with, none for the empty
scalar, and a pattern of the whole. -/
structure Form where
  tag : Tag
  first : Text
  source : Text

def numberStart : Text := "-+0123456789".toList

def timestampSource : Text :=
  ("^(?:[0-9][0-9][0-9][0-9]-[0-9][0-9]-[0-9][0-9]" ++
    "|[0-9][0-9][0-9][0-9]-[0-9][0-9]?-[0-9][0-9]?(?:[Tt]|[ \\t]+)[0-9][0-9]?" ++
    ":[0-9][0-9]:[0-9][0-9](?:\\.[0-9]*)?" ++
    "(?:[ \\t]*(?:Z|[-+][0-9][0-9]?(?::[0-9][0-9])?))?)$").toList

/-- The forms of plain scalars; the first that fits gives the type. -/
def forms : List Form := [
  ⟨.bool, "yYnNtTfFoO".toList,
    ("^(?:yes|Yes|YES|no|No|NO|true|True|TRUE|false|False|FALSE|on|On|ON|off|Off|OFF)$").toList⟩,
  ⟨.float, '.' :: numberStart,
    ("^(?:[-+]?(?:[0-9][0-9_]*)\\.[0-9_]*(?:[eE][-+][0-9]+)?|\\.[0-9][0-9_]*(?:[eE][-+][0-9]+)?" ++
      "|[-+]?[0-9][0-9_]*(?::[0-5]?[0-9])+\\.[0-9_]*|[-+]?\\.(?:inf|Inf|INF)" ++
      "|\\.(?:nan|NaN|NAN))$").toList⟩,
  ⟨.int, numberStart,
    ("^(?:[-+]?0b[0-1_]+|[-+]?0[0-7_]+|[-+]?(?:0|[1-9][0-9_]*)|[-+]?0x[0-9a-fA-F_]+" ++
      "|[-+]?[1-9][0-9_]*(?::[0-5]?[0-9])+)$").toList⟩,
  ⟨.merge, ['<'], "^(?:<<)$".toList⟩,
  ⟨.null, "~nN".toList, "^(?:~|null|Null|NULL)$".toList⟩,
  ⟨.timestamp, "0123456789".toList, timestampSource⟩,
  ⟨.value, ['='], "^(?:=)$".toList⟩,
  ⟨.unknown, "!&*".toList, "^(?:!|&|\\*)$".toList⟩]

def Form.fits (form : Form) (t : Text) : Bool :=
  match t with
  | [] => false
  | c :: _ =>
    form.first.contains c &&
      match Matcher.ofSource form.source with
      | .ok m => m.accepts t
      | .error _ => false

/-- The tag of a plain scalar. The empty one is null. -/
def Tag.ofPlain (t : Text) : Tag :=
  if t.isEmpty then .null else ((forms.find? (·.fits t)).map (·.tag)).getD .str

end FragmentRouting.Yaml
