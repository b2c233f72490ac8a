namespace FragmentRouting

abbrev Text := List Char

namespace Text

def dropLead (c : Char) : Text → Text
  | [] => []
  | d :: rest => if d = c then rest else d :: rest

/-- The part before the first `c`, and the part after it if there is one. -/
def cut (c : Char) : Text → Text × Option Text
  | [] => ([], none)
  | d :: rest =>
    if d = c then ([], some rest)
    else ((d :: (cut c rest).1), (cut c rest).2)

def joinWith {α : Type} (separator : List α) (parts : List (List α)) : List α :=
  separator.intercalate parts

/-- The text in lower case, letters outside ASCII left alone. It serves to compare with ASCII
names only, and no letter outside ASCII has a lower-case form that stands in one of them. -/
def lowerAscii (t : Text) : Text := t.map Char.toLower

def ofNat (n : Nat) : Text := Nat.toDigits 10 n

def ofInt : Int → Text
  | .ofNat n => ofNat n
  | .negSucc n => '-' :: ofNat (n + 1)

def padZeros (width : Nat) (t : Text) : Text := List.replicate (width - t.length) '0' ++ t

def hexDigit (d : Nat) : Char := Nat.digitChar d

def ofHex (width n : Nat) : Text :=
  (List.range width).reverse.map fun i => hexDigit (n / Nat.pow 16 i % 16)

def hexValue? (c : Char) : Option Nat :=
  if '0' ≤ c ∧ c ≤ '9' then some (c.toNat - '0'.toNat)
  else if 'a' ≤ c ∧ c ≤ 'f' then some (c.toNat - 'a'.toNat + 10)
  else if 'A' ≤ c ∧ c ≤ 'F' then some (c.toNat - 'A'.toNat + 10)
  else none

/-- The number that the digits spell in a base, if each is a digit of that base and there is
one. -/
def toNat? (base : Nat) (t : Text) : Option Nat :=
  if t.isEmpty then none
  else t.foldlM (fun n c => match hexValue? c with
    | some d => if d < base then some (n * base + d) else none
    | none => none) 0

def le (s t : Text) : Bool := !List.lex t s (· < ·)

end Text

end FragmentRouting
