import FragmentRouting.Text.Property
import FragmentRouting.Text.CodePoints

namespace FragmentRouting

/-- The most decimal digits that an integer may have to be read or written. -/
def digitLimit : Nat := 4300

namespace Numeral

/-- The character that a code point counts as in a numeral: itself in ASCII, a blank or a decimal
digit beyond it. -/
def asciiChar? (n : Nat) : Option Char :=
  if n < 0x7F then some (Char.ofNat n)
  else if Text.inRanges Text.blankRanges n then some ' '
  else (Text.digitValue? n).map Nat.digitChar

/-- The ASCII form of a numeral. It ends behind the first code point that can stand in no numeral,
with a mark that is part of none. -/
def ascii : CodePoints → Text
  | [] => []
  | n :: rest => match asciiChar? n with
    | some c => c :: ascii rest
    | none => ['?']

def isAsciiBlank (c : Char) : Bool := c == ' ' || ('\t' ≤ c && c ≤ '\r')

def bare (numeral : CodePoints) : Text :=
  (((ascii numeral).dropWhile isAsciiBlank).reverse.dropWhile isAsciiBlank).reverse

/-- Splits off a sign: whether it is negative, and the rest. -/
def signed : Text → Bool × Text
  | '-' :: rest => (true, rest)
  | '+' :: rest => (false, rest)
  | t => (false, t)

/-- The digits without the mark that base two, eight or sixteen may have in front of them. -/
def unmarked (base : Nat) (digits : Text) : Text :=
  let mark := if base = 2 then 'b' else if base = 8 then 'o' else 'x'
  match digits with
  | '0' :: c :: rest => if base ≠ 10 ∧ c.toLower = mark then rest else digits
  | _ => digits

inductive Flaw where
  | noInteger
  | overlong (digits : Nat)
  deriving DecidableEq, Repr

/-- The integer that a numeral spells in a base. In base ten the digits in front are counted before
anything else is looked at. -/
def readInteger (base : Nat) (numeral : CodePoints) : Except Flaw Int :=
  let (negative, digits) := signed (bare numeral)
  let count := (digits.takeWhile Char.isDigit).length
  if base = 10 ∧ digitLimit < count then .error (.overlong count)
  else match Text.toNat? base (unmarked base digits) with
    | some n => .ok (if negative then -(n : Int) else n)
    | none => .error .noInteger

end Numeral

end FragmentRouting
