import FragmentRouting.Charset.Basic
import FragmentRouting.Fault

/-!
Percent-encoding of keys and values. Letters, digits and `_.-~` stand for themselves, a blank is
written as a plus sign, and any other byte as a percent sign with two upper-case hexadecimal digits.
Reading turns plus signs into blanks and decodes each maximal run of ASCII characters on its own.
-/
namespace FragmentRouting.Wire

/-- Why bytes are no text: they are malformed, or their character set fails in a way of its own. -/
inductive DecodingFault where
  | undecodable (cause : Charset.Undecodable)
  | other (fault : Fault)

/-- A character set of the platform beside those known here. -/
structure ForeignCharset where
  encode : CodePoints → Except Fault (List UInt8)
  decode : List UInt8 → Except DecodingFault Text

inductive Transcoder where
  | known (charset : Charset)
  | foreign (charset : ForeignCharset)

namespace Transcoder

def encode {α : Type} [Alphabet α] (t : List α) : Transcoder → Except Fault (List UInt8)
  | .known charset => (charset.encode t).mapError .unencodable
  | .foreign charset => charset.encode (t.map Alphabet.code)

def decode (bytes : List UInt8) : Transcoder → Except DecodingFault Text
  | .known charset => (charset.decode bytes).mapError .undecodable
  | .foreign charset => charset.decode bytes

end Transcoder

/-- An encoding setting, and what the platform has under names that are not known here. -/
structure Encoding where
  setting : Value := .text "utf-8".toList
  others : Text → Except Fault ForeignCharset := fun name => .error (.unknownEncoding name)

/-- The character set that a setting names; null stands for UTF-8. -/
def charsetOf (decoding : Bool) (encoding : Encoding) : Except Fault Transcoder :=
  match encoding.setting with
  | .null => .ok (.known .utf8)
  | .text name =>
    match Charset.ofName? name with
    | some charset => .ok (.known charset)
    | none =>
      if name.contains '\x00' then .error .nullInName
      else (encoding.others name).map .foreign
  | v => .error (.encodingKind decoding v.kind)

def isUnreserved (b : UInt8) : Bool :=
  let c := Char.ofNat b.toNat
  c.isAlphanum || c == '_' || c == '.' || c == '-' || c == '~'

def upperHexDigit (d : Nat) : Char := (Nat.digitChar d).toUpper

def quoteByte (b : UInt8) : Text :=
  if isUnreserved b then [Char.ofNat b.toNat]
  else if b = 0x20 then ['+']
  else ['%', upperHexDigit (b.toNat / 16), upperHexDigit (b.toNat % 16)]

def quoteBytes (bytes : List UInt8) : Text := bytes.flatMap quoteByte

/-- A text as it is written in an encoding. An empty text needs no character set. -/
def quote {α : Type} [Alphabet α] (encoding : Encoding) (t : List α) : Except Fault Text :=
  if t.isEmpty then .ok []
  else do
    let charset ← charsetOf false encoding
    let bytes ← charset.encode t
    return quoteBytes bytes

/-- A key as it is written. Keys other than texts have no encoding; without one, bytes can be
written as they are. -/
def quoteKey {α : Type} [Alphabet α] (encoding : Encoding) (key : Value α) : Except Fault Text :=
  match key, encoding.setting with
  | .text t, _ => quote encoding t
  | .bytes bytes, .null => .ok (quoteBytes bytes)
  | _, .null => .error .unquotableValue
  | _, _ => .error .unquotableKey

/-- The offset of the first percent sign that two hexadecimal digits do not follow, for a text that
starts at `offset`. -/
def badEscapeFrom (offset : Nat) : Text → Option Nat
  | [] => none
  | '%' :: rest =>
    match rest with
    | a :: b :: _ =>
      if (Text.hexValue? a).isSome && (Text.hexValue? b).isSome then badEscapeFrom (offset + 1) rest
      else some offset
    | _ => some offset
  | _ :: rest => badEscapeFrom (offset + 1) rest

def badEscape? (t : Text) : Option Nat := badEscapeFrom 0 t

/-- The bytes of a run of ASCII characters: an escape gives its byte, any other character its
own. -/
def unquoteBytes : Text → List UInt8
  | '%' :: a :: b :: rest =>
    match Text.hexValue? a, Text.hexValue? b with
    | some high, some low => .ofNat (high * 16 + low) :: unquoteBytes rest
    | _, _ => .ofNat '%'.toNat :: unquoteBytes (a :: b :: rest)
  | c :: rest => .ofNat c.toNat :: unquoteBytes rest
  | [] => []

/-- Decodes each maximal run of ASCII characters; `run` is the one in progress, in reverse. -/
def decodeRuns (decode : List UInt8 → Except Fault Text) (run : Text) : Text → Except Fault Text
  | [] => flush
  | c :: rest =>
    if c.toNat < 128 then decodeRuns decode (c :: run) rest
    else do
      let before ← flush
      let after ← decodeRuns decode [] rest
      return before ++ c :: after
where
  flush : Except Fault Text :=
    if run.isEmpty then .ok [] else decode (unquoteBytes run.reverse)

def plusToBlank (c : Char) : Char := if c = '+' then ' ' else c

def decodeRun (encoding : Encoding) (query t : Text) (bytes : List UInt8) : Except Fault Text := do
  let charset ← charsetOf true encoding
  (charset.decode bytes).mapError fun
    | .undecodable cause => .malformedQuery (.undecodable t cause) query
    | .other fault => fault

/-- Reads a written key or value, a part of `query`. A text without escapes needs no character
set. -/
def unquote (encoding : Encoding) (query t : Text) : Except Fault Text :=
  match badEscape? t with
  | some offset => .error (.malformedQuery (.badEscape offset t) query)
  | none =>
    let blanked := t.map plusToBlank
    if blanked.contains '%' then decodeRuns (decodeRun encoding query t) [] blanked
    else .ok blanked

end FragmentRouting.Wire
