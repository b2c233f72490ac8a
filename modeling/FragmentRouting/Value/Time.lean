import FragmentRouting.Text.Basic

namespace FragmentRouting

structure Date where
  year : Nat
  month : Nat
  day : Nat
  deriving DecidableEq, Repr

structure Moment where
  date : Date
  hour : Nat
  minute : Nat
  second : Nat
  fraction : Nat
  offset : Option Int
  deriving DecidableEq, Repr

inductive TimeFlaw where
  | year (number : Nat)
  | month
  | day
  | hour
  | minute
  | second
  | offset (minutes : Int)
  deriving DecidableEq, Repr

def isLeapYear (year : Nat) : Bool :=
  year % 4 == 0 && (year % 100 != 0 || year % 400 == 0)

def daysInMonth (year month : Nat) : Nat :=
  if month = 2 then if isLeapYear year then 29 else 28
  else if [4, 6, 9, 11].contains month then 30
  else 31

def Date.ofParts (year month day : Nat) : Except TimeFlaw Date :=
  if year = 0 then .error (.year year)
  else if month = 0 ∨ 12 < month then .error .month
  else if day = 0 ∨ daysInMonth year month < day then .error .day
  else .ok ⟨year, month, day⟩

def Moment.ofParts (date : Date) (hour minute second fraction : Nat) (offset : Option Int) :
    Except TimeFlaw Moment :=
  if 23 < hour then .error .hour
  else if 59 < minute then .error .minute
  else if 59 < second then .error .second
  else .ok ⟨date, hour, minute, second, fraction, offset⟩

def checkOffset : Option Int → Except TimeFlaw Unit
  | some minutes => if 24 * 60 ≤ minutes.natAbs then .error (.offset minutes) else .ok ()
  | none => .ok ()

def paddedText (width n : Nat) : Text := Text.padZeros width (Text.ofNat n)

def Date.toText (d : Date) : Text :=
  paddedText 4 d.year ++ '-' :: paddedText 2 d.month ++ '-' :: paddedText 2 d.day

def offsetText (minutes : Int) : Text :=
  (if minutes < 0 then '-' else '+') :: paddedText 2 (minutes.natAbs / 60) ++
    ':' :: paddedText 2 (minutes.natAbs % 60)

def Moment.toText (m : Moment) : Text :=
  m.date.toText ++ ' ' :: paddedText 2 m.hour ++ ':' :: paddedText 2 m.minute ++
    ':' :: paddedText 2 m.second ++
    (if m.fraction = 0 then [] else '.' :: paddedText 6 m.fraction) ++
    (m.offset.map offsetText).getD []

/-- Two counts of a duration, of days and of seconds below a day, without those that are zero. -/
def durationText (minutes : Int) : Text :=
  let days := minutes.fdiv (24 * 60)
  let seconds := minutes.fmod (24 * 60) * 60
  let parts := (if days = 0 then [] else ["days=".toList ++ Text.ofInt days]) ++
    (if seconds = 0 then [] else ["seconds=".toList ++ Text.ofInt seconds])
  "datetime.timedelta(".toList ++ Text.joinWith ", ".toList parts ++ [')']

def offsetShown (minutes : Int) : Text :=
  if minutes = 0 then "datetime.timezone.utc".toList
  else "datetime.timezone(".toList ++ durationText minutes ++ [')']

def Date.shown (d : Date) : Text :=
  let parts := [d.year, d.month, d.day].map Text.ofNat
  "datetime.date(".toList ++ Text.joinWith ", ".toList parts ++ [')']

/-- A moment as diagnostics show it. A fraction of zero is left out, and then seconds of zero. -/
def Moment.shown (m : Moment) : Text :=
  let precise := if m.fraction = 0 then (if m.second = 0 then [] else [m.second])
    else [m.second, m.fraction]
  let numbers := [m.date.year, m.date.month, m.date.day, m.hour, m.minute] ++ precise
  let zone := (m.offset.map fun minutes => "tzinfo=".toList ++ offsetShown minutes).toList
  "datetime.datetime(".toList ++ Text.joinWith ", ".toList (numbers.map Text.ofNat ++ zone) ++ [')']

def TimeFlaw.message : TimeFlaw → Text
  | .year n => "year ".toList ++ Text.ofNat n ++ " is out of range".toList
  | .month => "month must be in 1..12".toList
  | .day => "day is out of range for month".toList
  | .hour => "hour must be in 0..23".toList
  | .minute => "minute must be in 0..59".toList
  | .second => "second must be in 0..59".toList
  | .offset minutes =>
    ("offset must be a timedelta strictly between -timedelta(hours=24) and " ++
      "timedelta(hours=24), not ").toList ++ durationText minutes ++ ['.']

end FragmentRouting
