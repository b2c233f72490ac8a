import FragmentRouting.Number.Binary64

/-!
The shortest decimal that reads back as a given binary64 number, and its text. For each number of
digits from one to seventeen the two neighbours of the value on that decimal grid are tried; the
first grid with a neighbour that reads back wins, and of two such neighbours the nearer, a tie going
to the even digit.
-/
namespace FragmentRouting.Binary64

/-- The exponent of the leading decimal digit of a positive ratio. -/
def leadingExponent (num den : Nat) : Int :=
  if den ≤ num then ((Text.ofNat (num / den)).length : Int) - 1
  else
    match (List.range 400).find? fun j => den ≤ num * Nat.pow 10 (j + 1) with
    | some j => -((j : Int) + 1)
    | none => -400

def descale (num den : Nat) : Int → Nat × Nat
  | .ofNat k => (num, den * Nat.pow 10 k)
  | .negSucc k => (num * Nat.pow 10 (k + 1), den)

def neighbour? (m : Nat) (e scale : Int) : Option Nat :=
  let (num, den) := ratio m e
  let (num, den) := descale num den scale
  let below := num / den
  let readsBack (n : Nat) : Bool := ofDecimal false n scale == .finite false m e
  match readsBack below, readsBack (below + 1) with
  | false, false => none
  | true, false => some below
  | false, true => some (below + 1)
  | true, true => some (roundDiv num den)

def dropZeros : Nat → Nat → Int → Nat × Int
  | 0, n, scale => (n, scale)
  | fuel + 1, n, scale =>
    if n % 10 = 0 ∧ n ≠ 0 then dropZeros fuel (n / 10) (scale + 1) else (n, scale)

/-- The digits and the scale of the shortest decimal that reads back as `m * 2 ^ e`, for a
mantissa that is not zero. -/
def shortest (m : Nat) (e : Int) : Nat × Int :=
  let (num, den) := ratio m e
  let top := leadingExponent num den
  let found := (List.range 17).findSome? fun n : Nat =>
    let scale := top - (n : Int)
    (neighbour? m e scale).map fun digits => (digits, scale)
  let (digits, scale) := found.getD (0, 0)
  dropZeros 20 digits scale

/-- How a decimal is laid out: the decimal exponents from `positionalFrom` up to, not including,
`positionalBelow` are written with a point, the others with an exponent of at least
`exponentDigits` digits. -/
structure Layout where
  positionalFrom : Int
  positionalBelow : Int
  exponentDigits : Nat

def plainLayout : Layout := ⟨-4, 16, 2⟩

/-- The text of `digits` with the leading digit at the decimal exponent `top`. A positional number
always has a digit after its point. -/
def Layout.write (layout : Layout) (digits : Text) (top : Int) : Text :=
  if layout.positionalFrom ≤ top ∧ top < layout.positionalBelow then
    match top with
    | .ofNat k =>
      let padded := digits ++ List.replicate (k + 1 - digits.length) '0'
      let fraction := padded.drop (k + 1)
      padded.take (k + 1) ++ '.' :: (if fraction.isEmpty then ['0'] else fraction)
    | .negSucc k => '0' :: '.' :: (List.replicate k '0' ++ digits)
  else
    let significand := match digits with
      | first :: second :: rest => first :: '.' :: second :: rest
      | _ => digits
    significand ++ 'e' :: (if top < 0 then '-' else '+') ::
      Text.padZeros layout.exponentDigits (Text.ofNat top.natAbs)

def toText : Binary64 → Text
  | .nan => "nan".toList
  | .infinite false => "inf".toList
  | .infinite true => "-inf".toList
  | .finite negative m e =>
    let magnitude :=
      if m = 0 then "0.0".toList
      else
        let (digits, scale) := shortest m e
        let digits := Text.ofNat digits
        plainLayout.write digits (digits.length - 1 + scale)
    if negative then '-' :: magnitude else magnitude

end FragmentRouting.Binary64
