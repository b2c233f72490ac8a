import FragmentRouting.Number.Binary64

namespace FragmentRouting.Binary64

def withSign (negative : Bool) (n : Nat) : Int := if negative then -(n : Int) else n

def add : Binary64 → Binary64 → Binary64
  | .finite negative m e, .finite negative' m' e' =>
    let (num, den) := ratio m e
    let (num', den') := ratio m' e'
    let sum := withSign negative (num * den') + withSign negative' (num' * den)
    if sum = 0 then zero (negative && negative') else ofRatio (sum < 0) sum.natAbs (den * den')
  | .infinite negative, .infinite negative' =>
    if negative = negative' then .infinite negative else .nan
  | .nan, _ => .nan
  | _, .nan => .nan
  | .infinite negative, _ => .infinite negative
  | _, .infinite negative => .infinite negative

def isZero : Binary64 → Bool
  | .finite _ m _ => m == 0
  | _ => false

def mul : Binary64 → Binary64 → Binary64
  | .finite negative m e, .finite negative' m' e' =>
    let (num, den) := ratio m e
    let (num', den') := ratio m' e'
    ofRatio (negative != negative') (num * num') (den * den')
  | .nan, _ => .nan
  | _, .nan => .nan
  | .infinite negative, .infinite negative' => .infinite (negative != negative')
  | .infinite negative, .finite negative' m e =>
    if isZero (.finite negative' m e) then .nan else .infinite (negative != negative')
  | .finite negative m e, .infinite negative' =>
    if isZero (.finite negative m e) then .nan else .infinite (negative != negative')

/-- The number nearest to a natural number, unless that is too large. -/
def ofNat? (n : Nat) : Option Binary64 :=
  match ofRatio false n 1 with
  | .finite negative m e => some (.finite negative m e)
  | _ => none

end FragmentRouting.Binary64
