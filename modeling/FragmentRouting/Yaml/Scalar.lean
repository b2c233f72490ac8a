import FragmentRouting.Number.Arithmetic
import FragmentRouting.Number.Numeral
import FragmentRouting.Text.LowerCase
import FragmentRouting.Yaml.Tag
import FragmentRouting.Yaml.Timestamp

namespace FragmentRouting

namespace Base64

def value? (c : Char) : Option Nat :=
  if 'A' ≤ c ∧ c ≤ 'Z' then some (c.toNat - 'A'.toNat)
  else if 'a' ≤ c ∧ c ≤ 'z' then some (c.toNat - 'a'.toNat + 26)
  else if '0' ≤ c ∧ c ≤ '9' then some (c.toNat - '0'.toNat + 52)
  else if c = '+' then some 62
  else if c = '/' then some 63
  else none

/-- The bytes of a text, read behind `seen` characters of a group, whose bits that make no byte yet
are `left`, and behind `pads` signs of padding. `none` if the last group is incomplete. -/
def decodeGroup (seen left pads : Nat) : Text → Option (List UInt8)
  | [] => if seen = 0 then some [] else none
  | '=' :: rest =>
    if 2 ≤ seen ∧ 4 ≤ seen + pads + 1 then some []
    else decodeGroup seen left (if 2 ≤ seen then pads + 1 else pads) rest
  | c :: rest =>
    match value? c with
    | none => decodeGroup seen left pads rest
    | some bits =>
      match seen with
      | 0 => decodeGroup 1 bits 0 rest
      | 1 => (decodeGroup 2 (bits % 16) 0 rest).map ((left * 4 + bits / 16).toUInt8 :: ·)
      | 2 => (decodeGroup 3 (bits % 4) 0 rest).map ((left * 16 + bits / 4).toUInt8 :: ·)
      | _ => (decodeGroup 0 0 0 rest).map ((left * 64 + bits).toUInt8 :: ·)

def decode? (t : Text) : Option (List UInt8) := decodeGroup 0 0 0 t

end Base64

namespace Yaml

def withoutUnderscores (codes : CodePoints) : CodePoints := codes.filter (· != '_'.toNat)

def splitSign : CodePoints → Except Flaw (Bool × CodePoints)
  | [] => .error .emptyNumber
  | n :: rest =>
    if n = '-'.toNat then .ok (true, rest)
    else if n = '+'.toNat then .ok (false, rest)
    else .ok (false, n :: rest)

/-- The places of a number in base sixty, which stand between colons. -/
def places (codes : CodePoints) : List CodePoints := codes.splitOn ':'.toNat

def integerIn (base : Nat) (numeral : CodePoints) : Except Flaw Int :=
  match Numeral.readInteger base numeral with
  | .ok n => .ok n
  | .error .noInteger => .error (.notInteger base numeral)
  | .error (.overlong digits) => .error (.overlong digits)

/-- The integer that a number without its sign spells: in base two, sixteen or eight if its front
says so, else in base ten, or in base sixty with places between colons. -/
def unsignedInteger (codes : CodePoints) : Except Flaw Int :=
  match codes.map CodePoints.toChar with
  | [] => .error .emptyNumber
  | ['0'] => .ok 0
  | '0' :: 'b' :: _ => integerIn 2 (codes.drop 2)
  | '0' :: 'x' :: _ => integerIn 16 (codes.drop 2)
  | '0' :: _ => integerIn 8 codes
  | _ => do
    let values ← (places codes).mapM (integerIn 10)
    return values.foldl (fun n place => 60 * n + place) 0

def readInteger (content : CodePoints) : Except Flaw Int := do
  let (negative, codes) ← splitSign (withoutUnderscores content)
  let n ← unsignedInteger codes
  return if negative then -n else n

def readLiteral (numeral : CodePoints) : Except Flaw Binary64 :=
  match Binary64.ofLiteral? (Numeral.bare numeral) with
  | some x => .ok x
  | none => .error (.notFloat numeral)

/-- The number that places in base sixty spell. They are summed from the last on, and each product
and each sum is rounded. -/
def sexagesimal (values : List Binary64) : Except Flaw Binary64 :=
  values.reverse.zipIdx.foldlM (fun sum (x, i) =>
    match Binary64.ofNat? (Nat.pow 60 i) with
    | some weight => .ok (sum.add (x.mul weight))
    | none => .error .floatOverflow) (Binary64.zero false)

def unsignedFloat (codes : CodePoints) : Except Flaw Binary64 :=
  let text := codes.map CodePoints.toChar
  if text = ".inf".toList then .ok (.infinite false)
  else if text = ".nan".toList then .ok .nan
  else if text.contains ':' then do sexagesimal (← (places codes).mapM readLiteral)
  else readLiteral codes

def readFloat (content : CodePoints) : Except Flaw Binary64 := do
  let (negative, codes) ← splitSign (Text.lowerCodes (withoutUnderscores content))
  return (← unsignedFloat codes).negateIf negative

def readBool (content : CodePoints) : Except Flaw Bool :=
  let word := Text.lowerCodes content
  if (["yes", "true", "on"].map fun s => CodePoints.ofText s.toList).contains word then .ok true
  else if (["no", "false", "off"].map fun s => CodePoints.ofText s.toList).contains word then
    .ok false
  else .error (.notBool word)

/-- The bytes that a scalar spells in base 64. Only ASCII is admitted. -/
def readBinary (content : CodePoints) : Except Flaw (List UInt8) :=
  if content.all (· < 0x80) then orMalformed (Base64.decode? content.toText)
  else .error .malformed

def readTimestamp (content : CodePoints) : Except Flaw Value :=
  match Timestamp.read? (content.map CodePoints.toChar) with
  | some written => written.value.mapError .badTime
  | none => .error .notTimestamp

def scalarValue (tag : Tag) (content : CodePoints) : Except Flaw Value :=
  match tag with
  | .null => .ok .null
  | .bool => return .bool (← readBool content)
  | .int => return .int (← readInteger content)
  | .float => return .float (← readFloat content)
  | .str => .ok (.text content.toText)
  | .timestamp => readTimestamp content
  | .binary => return .bytes (← readBinary content)
  | _ => .error .malformed

end Yaml

end FragmentRouting
