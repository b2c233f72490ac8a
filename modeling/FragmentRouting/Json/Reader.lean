import FragmentRouting.Fault
import FragmentRouting.Number.Binary64

/-!
Reading JSON: the standard grammar, and the names of the numbers that are not finite. Of members
with one name the last gives the value and the first the place. A flaw is reported with the number
of characters from it to the end, from which the position follows.
-/
namespace FragmentRouting.Json

/-- Why reading stopped: a flaw and the number of characters left there, a numeral with too many
digits, or a list or map nested too deep. -/
inductive Stop where
  | flaw (flaw : Flaw) (left : Nat)
  | overlong (digits : Nat)
  | tooDeep (container : Container)
  deriving DecidableEq, Repr

def isSpace (c : Char) : Bool := c == ' ' || c == '\t' || c == '\n' || c == '\r'

def skipSpace (t : Text) : Text := t.dropWhile isSpace

def unit? (a b c d : Char) : Option Nat := Text.toNat? 16 [a, b, c, d]

def escaped? : Char → Option Char
  | '"' => some '"'
  | '\\' => some '\\'
  | '/' => some '/'
  | 'b' => some '\x08'
  | 'f' => some '\x0c'
  | 'n' => some '\n'
  | 'r' => some '\r'
  | 't' => some '\t'
  | _ => none

def addUnit (n : Nat) : List Nat × Text → List Nat × Text
  | (read, rest) => (n :: read, rest)

/-- Reads the units of a string after its opening quote, which stands `opened` characters before
the end. The last escape of a string must leave room for the closing quote. -/
def readUnits (opened : Nat) : Text → Except Stop (List Nat × Text)
  | [] => .error (.flaw .unclosedString opened)
  | '"' :: rest => .ok ([], rest)
  | ['\\'] => .error (.flaw .unclosedString opened)
  | '\\' :: 'u' :: a :: b :: c :: d :: e :: rest =>
    match unit? a b c d with
    | none => .error (.flaw .badUnicodeEscape (rest.length + 6))
    | some n => (readUnits opened (e :: rest)).map (addUnit n)
  | '\\' :: 'u' :: rest => .error (.flaw .badUnicodeEscape (rest.length + 1))
  | '\\' :: c :: rest =>
    match escaped? c with
    | some d => (readUnits opened rest).map (addUnit d.toNat)
    | none => .error (.flaw .badEscape (rest.length + 2))
  | c :: rest =>
    if c.toNat < 0x20 then .error (.flaw .controlCharacter (rest.length + 1))
    else (readUnits opened rest).map (addUnit c.toNat)

def readString (opened : Nat) (t : Text) : Except Stop (Text × Text) :=
  (readUnits opened t).map fun (units, rest) => (CodePoints.toText units, rest)

def fractionOf : Text → Text
  | '.' :: rest => match rest.takeWhile Char.isDigit with
    | [] => []
    | digits => '.' :: digits
  | _ => []

def exponentOf : Text → Text
  | e :: rest =>
    if e = 'e' ∨ e = 'E' then
      let sign := rest.takeWhile fun c => c == '+' || c == '-'
      let digits := (rest.drop sign.length).takeWhile Char.isDigit
      if sign.length ≤ 1 ∧ digits ≠ [] then e :: (sign ++ digits) else []
    else []
  | [] => []

def wholeOf : Text → Text
  | '0' :: _ => ['0']
  | t => t.takeWhile Char.isDigit

def readNumber? (t : Text) : Option (Except Stop (Value × Text)) :=
  let (negative, body) := match t with
    | '-' :: rest => (true, rest)
    | _ => (false, t)
  let whole := wholeOf body
  if whole.isEmpty then none
  else
    let fraction := fractionOf (body.drop whole.length)
    let exponent := exponentOf (body.drop (whole.length + fraction.length))
    let rest := body.drop (whole.length + fraction.length + exponent.length)
    if fraction.isEmpty && exponent.isEmpty then
      if digitLimit < whole.length then some (.error (.overlong whole.length))
      else
        let n : Int := (Text.toNat? 10 whole).getD 0
        some (.ok (.int (if negative then -n else n), rest))
    else
      let x := (Binary64.ofLiteral? (whole ++ fraction ++ exponent)).getD .nan
      some (.ok (.float (x.negateIf negative), rest))

def named : List (Text × Value) := [
  ("null".toList, .null), ("true".toList, .bool true), ("false".toList, .bool false),
  ("NaN".toList, .float .nan), ("Infinity".toList, .float (.infinite false)),
  ("-Infinity".toList, .float (.infinite true))]

def readNamed? (t : Text) : Option (Value × Text) :=
  (named.find? fun (name, _) => name.isPrefixOf t).map fun (name, v) => (v, t.drop name.length)

mutual

/-- Reads a value in which `depth` lists and maps may stand inside each other; `fuel` bounds the
number of items. -/
def readValue (depth : Nat) : Nat → Text → Except Stop (Value × Text)
  | 0, t => .error (.flaw .expectedValue t.length)
  | fuel + 1, t =>
    match t with
    | '"' :: rest => do
      let (read, rest) ← readString t.length rest
      return (.text read, rest)
    | '[' :: rest =>
      match depth with
      | 0 => .error (.tooDeep .list)
      | depth + 1 =>
        match skipSpace rest with
        | ']' :: rest => .ok (.list [], rest)
        | rest => do
          let (items, rest) ← readItems depth fuel rest
          return (.list items, rest)
    | '\x7b' :: rest =>
      match depth with
      | 0 => .error (.tooDeep .map)
      | depth + 1 =>
        match skipSpace rest with
        | '\x7d' :: rest => .ok (.map [], rest)
        | rest => do
          let (entries, rest) ← readMembers depth fuel [] rest
          return (.map entries, rest)
    | _ =>
      match readNamed? t with
      | some (v, rest) => .ok (v, rest)
      | none => (readNumber? t).getD (.error (.flaw .expectedValue t.length))

def readItems (depth : Nat) : Nat → Text → Except Stop (List Value × Text)
  | 0, t => .error (.flaw .expectedValue t.length)
  | fuel + 1, t => do
    let (item, rest) ← readValue depth fuel t
    match skipSpace rest with
    | ']' :: rest => return ([item], rest)
    | ',' :: rest =>
      let (items, rest) ← readItems depth fuel (skipSpace rest)
      return (item :: items, rest)
    | rest => .error (.flaw .expectedComma rest.length)

/-- Reads the members of a map up to its closing brace, after those read so far. -/
def readMembers (depth : Nat) :
    Nat → List (Value × Value) → Text → Except Stop (List (Value × Value) × Text)
  | 0, _, t => .error (.flaw .expectedName t.length)
  | fuel + 1, entries, t =>
    match t with
    | '"' :: rest => do
      let (name, rest) ← readString t.length rest
      match skipSpace rest with
      | ':' :: rest =>
        let (value, rest) ← readValue depth fuel (skipSpace rest)
        let entries := OrderedMap.insert (.text name) value entries
        match skipSpace rest with
        | '\x7d' :: rest => return (entries, rest)
        | ',' :: rest => readMembers depth fuel entries (skipSpace rest)
        | rest => .error (.flaw .expectedComma rest.length)
      | rest => .error (.flaw .expectedColon rest.length)
    | _ => .error (.flaw .expectedName t.length)

end

/-- The value of a document, with lists and maps nested at most as deep as is said. -/
def read (nesting : Nat) (document : Text) : Except Stop Value :=
  match document with
  | '\ufeff' :: _ => .error (.flaw .byteOrderMark document.length)
  | _ => do
    let body := skipSpace document
    let (v, rest) ← readValue nesting (2 * body.length + 2) body
    match skipSpace rest with
    | [] => return v
    | rest => .error (.flaw .extraData rest.length)

end FragmentRouting.Json
