import FragmentRouting.Text.Basic

/-!
Binary64 numbers as exact values: a sign, a natural mantissa below `2 ^ 53` and a power of two.
Ratios and decimals are rounded to the nearest such number, ties to the even mantissa, in exact
natural arithmetic.
-/
namespace FragmentRouting

/-- A binary64 number. `finite n m e` is `m * 2 ^ e`, negated if `n`; the exponent is the least
one that the mantissa allows, so each number has one form. -/
inductive Binary64 where
  | nan
  | infinite (negative : Bool)
  | finite (negative : Bool) (mantissa : Nat) (exponent : Int)
  deriving DecidableEq, Repr

namespace Binary64

def zero (negative : Bool) : Binary64 := .finite negative 0 (-1074)

def roundDiv (num den : Nat) : Nat :=
  let q := num / den
  let r := num % den
  if 2 * r < den ∨ (2 * r = den ∧ q % 2 = 0) then q else q + 1

def roundScaled (num den : Nat) : Int → Nat
  | .ofNat k => roundDiv num (den * Nat.pow 2 k)
  | .negSucc k => roundDiv (num * Nat.pow 2 (k + 1)) den

def powerLe (num den : Nat) : Int → Bool
  | .ofNat k => den * Nat.pow 2 k ≤ num
  | .negSucc k => den ≤ num * Nat.pow 2 (k + 1)

def ofRatio (negative : Bool) (num den : Nat) : Binary64 :=
  if num = 0 then zero negative
  else
    let guess : Int := (num.log2 : Int) - den.log2
    let top := if powerLe num den guess then guess else guess - 1
    let e := max (top - 52) (-1074)
    let m := roundScaled num den e
    let (m, e) := if m = Nat.pow 2 53 then (Nat.pow 2 52, e + 1) else (m, e)
    if 971 < e then .infinite negative else .finite negative m e

/-- The binary64 number nearest to `digits * 10 ^ scale`. Decimals far outside the range are
settled by their order of magnitude alone. -/
def ofDecimal (negative : Bool) (digits : Nat) (scale : Int) : Binary64 :=
  let magnitude : Int := (Text.ofNat digits).length + scale
  if digits = 0 ∨ magnitude < -330 then zero negative
  else if 310 < magnitude then .infinite negative
  else match scale with
    | .ofNat k => ofRatio negative (digits * Nat.pow 10 k) 1
    | .negSucc k => ofRatio negative digits (Nat.pow 10 (k + 1))

def ratio (mantissa : Nat) : Int → Nat × Nat
  | .ofNat k => (mantissa * Nat.pow 2 k, 1)
  | .negSucc k => (mantissa, Nat.pow 2 (k + 1))

def equalsInt : Binary64 → Int → Bool
  | .finite negative m e, n =>
    let (num, den) := ratio m e
    num == n.natAbs * den && (m == 0 || negative == decide (n < 0))
  | _, _ => false

/-- Equality of numbers: the two zeros are equal, and `nan` equals nothing. -/
def equals : Binary64 → Binary64 → Bool
  | .nan, _ => false
  | .finite _ 0 _, .finite _ 0 _ => true
  | x, y => x == y

def negateIf (change : Bool) : Binary64 → Binary64
  | .nan => .nan
  | .infinite negative => .infinite (negative != change)
  | .finite negative m e => .finite (negative != change) m e

def readExponent? : Text → Option Int
  | '-' :: t => (Text.toNat? 10 t).map fun n => -(n : Int)
  | '+' :: t => (Text.toNat? 10 t).map fun n => (n : Int)
  | t => (Text.toNat? 10 t).map fun n => (n : Int)

def readMagnitude? (t : Text) : Option Binary64 := do
  let (significand, exponent) := Text.cut 'e' t
  let exponent ← match exponent with
    | none => some 0
    | some e => readExponent? e
  let (whole, fraction) := Text.cut '.' significand
  let fraction := fraction.getD []
  let digits ← Text.toNat? 10 (whole ++ fraction)
  return ofDecimal false digits (exponent - fraction.length)

/-- Reads a literal: a decimal, an infinity or `nan`, with an optional sign and in either case. -/
def ofLiteral? (t : Text) : Option Binary64 :=
  match Text.lowerAscii t with
  | '-' :: t => (unsigned t).map (negateIf true)
  | '+' :: t => unsigned t
  | t => unsigned t
where
  unsigned (t : Text) : Option Binary64 :=
    if t = "nan".toList then some .nan
    else if t = "inf".toList ∨ t = "infinity".toList then some (.infinite false)
    else readMagnitude? t

end Binary64

end FragmentRouting
