import FragmentRouting.Text.Basic

/-!
Code points. Documents and the caller's texts may hold half a surrogate pair, which is a code point
but no character.
-/
namespace FragmentRouting

abbrev CodePoints := List Nat

namespace CodePoints

def ofText (t : Text) : CodePoints := t.map Char.toNat

def isHighSurrogate (n : Nat) : Bool := 0xD800 ≤ n && n < 0xDC00

def isLowSurrogate (n : Nat) : Bool := 0xDC00 ≤ n && n < 0xE000

def isSurrogate (n : Nat) : Bool := isHighSurrogate n || isLowSurrogate n

def toChar (n : Nat) : Char := if isSurrogate n then '\ufffd' else .ofNat n

def pairChar (high low : Nat) : Char := .ofNat (0x10000 + (high - 0xD800) * 0x400 + (low - 0xDC00))

/-- The text that code points spell. The two halves of a surrogate pair side by side spell its
character. -/
def toText : CodePoints → Text
  | [] => []
  | [n] => [toChar n]
  | high :: low :: rest =>
    if isHighSurrogate high && isLowSurrogate low then pairChar high low :: toText rest
    else toChar high :: toText (low :: rest)

end CodePoints

/-- The letters of which texts of the caller consist. Each has a code point, which need not be that
of a character, and all characters are among them. -/
class Alphabet (α : Type) where
  ofText : Text → List α
  char? : α → Option Char
  code : α → Nat

instance : Alphabet Char where
  ofText t := t
  char? := some
  code := Char.toNat

/-- A code point, of a character or half of a surrogate pair. -/
abbrev CodePoint := Fin 0x110000

def CodePoint.ofChar (c : Char) : CodePoint := Fin.ofNat 0x110000 c.toNat

instance : Alphabet CodePoint where
  ofText t := t.map CodePoint.ofChar
  char? p := if CodePoints.isSurrogate p then none else some (.ofNat p)
  code p := p

end FragmentRouting
