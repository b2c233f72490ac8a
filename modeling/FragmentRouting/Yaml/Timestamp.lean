import FragmentRouting.Value.Basic
import FragmentRouting.Yaml.Basic

namespace FragmentRouting.Yaml

structure Clock where
  hour : Nat
  minute : Nat
  second : Nat
  fraction : Text
  /-- Minutes east of universal time. -/
  zone : Option Int
  deriving Repr

structure Timestamp where
  year : Nat
  month : Nat
  day : Nat
  clock : Option Clock
  deriving Repr

namespace Timestamp

/-- Reads as many digits as there are, up to a greatest number, but not fewer than a least one. -/
def digits? (least most : Nat) (t : Text) : Option (Nat × Text) :=
  let run := (t.take most).takeWhile Char.isDigit
  if run.length < least then none
  else (Text.toNat? 10 run).map fun n => (n, t.drop run.length)

def past? (c : Char) : Text → Option Text
  | d :: rest => if d = c then some rest else none
  | [] => none

def ends (t : Text) : Bool := t.isEmpty || t == ['\n']

def isGap (c : Char) : Bool := c == ' ' || c == '\t'

/-- What separates a date from a time: a letter or blanks. -/
def pastSeparator? : Text → Option Text
  | [] => none
  | c :: rest =>
    if c = 'T' ∨ c = 't' then some rest
    else if isGap c then some (rest.dropWhile isGap)
    else none

def zone? : Text → Option Int
  | [] => none
  | 'Z' :: rest => if ends rest then some 0 else none
  | sign :: rest =>
    if sign = '+' ∨ sign = '-' then do
      let (hours, rest) ← digits? 1 2 rest
      let (minutes, rest) ←
        if rest.head? = some ':' then digits? 2 2 rest.tail else some (0, rest)
      let east : Int := hours * 60 + minutes
      if ends rest then some (if sign = '-' then -east else east) else none
    else none

def clock? (t : Text) : Option Clock := do
  let (hour, t) ← digits? 1 2 t
  let (minute, t) ← digits? 2 2 (← past? ':' t)
  let (second, t) ← digits? 2 2 (← past? ':' t)
  let (fraction, t) := match t with
    | '.' :: rest => (rest.takeWhile Char.isDigit, rest.dropWhile Char.isDigit)
    | _ => ([], t)
  let zone ← if ends t then some none else (zone? (t.dropWhile isGap)).map some
  return ⟨hour, minute, second, fraction, zone⟩

def read? (t : Text) : Option Timestamp := do
  let (year, t) ← digits? 4 4 t
  let (month, t) ← digits? 1 2 (← past? '-' t)
  let (day, t) ← digits? 1 2 (← past? '-' t)
  if ends t then return ⟨year, month, day, none⟩
  else return ⟨year, month, day, some (← clock? (← pastSeparator? t))⟩

/-- The microseconds that the digits of a fraction stand for. Digits beyond the sixth are
dropped. -/
def microseconds (fraction : Text) : Nat :=
  let digits := fraction.take 6
  (Text.toNat? 10 (digits ++ List.replicate (6 - digits.length) '0')).getD 0

/-- The value of a timestamp. Its zone is checked before its date. -/
def value (written : Timestamp) : Except TimeFlaw Value := do
  match written.clock with
  | none => return .date (← Date.ofParts written.year written.month written.day)
  | some clock =>
    checkOffset clock.zone
    let date ← Date.ofParts written.year written.month written.day
    let fraction := microseconds clock.fraction
    return .moment (← Moment.ofParts date clock.hour clock.minute clock.second fraction clock.zone)

end Timestamp

end FragmentRouting.Yaml
