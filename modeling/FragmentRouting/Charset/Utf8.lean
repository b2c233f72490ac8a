import FragmentRouting.Text.Basic

/-!
UTF-8. Characters are written as one to four bytes; reading runs a machine over the bytes, whose
state says how many continuation bytes are owed and between which bounds the next one must lie. The
bounds rule out overlong forms, surrogates and values beyond the last code point.
-/
namespace FragmentRouting.Utf8

def encodeChar (c : Char) : List UInt8 :=
  let n := c.toNat
  if n < 0x80 then [.ofNat n]
  else if n < 0x800 then [.ofNat (0xC0 + n / 64), .ofNat (0x80 + n % 64)]
  else if n < 0x10000 then
    [.ofNat (0xE0 + n / 4096), .ofNat (0x80 + n / 64 % 64), .ofNat (0x80 + n % 64)]
  else
    [.ofNat (0xF0 + n / 262144), .ofNat (0x80 + n / 4096 % 64), .ofNat (0x80 + n / 64 % 64),
      .ofNat (0x80 + n % 64)]

def encode (t : Text) : List UInt8 := t.flatMap encodeChar

inductive Flaw where
  | badStart
  | badContinuation
  | truncated
  deriving DecidableEq, Repr

/-- Where the reader stands: between characters, or inside one with `owed + 1` bytes to come, the
next one between `low` and `high`, and the value `acc` so far. -/
inductive State where
  | start
  | inside (owed low high acc : Nat)
  deriving DecidableEq, Repr

/-- The state after the first byte of a character that is longer than one byte. -/
def State.ofLead? (n : Nat) : Option State :=
  if n < 0xC2 then none
  else if n < 0xE0 then some (.inside 0 0x80 0xBF (n - 0xC0))
  else if n < 0xF0 then
    some (.inside 1 (if n = 0xE0 then 0xA0 else 0x80) (if n = 0xED then 0x9F else 0xBF) (n - 0xE0))
  else if n < 0xF5 then
    some (.inside 2 (if n = 0xF0 then 0x90 else 0x80) (if n = 0xF4 then 0x8F else 0xBF) (n - 0xF0))
  else none

def decodeFrom : State → List UInt8 → Except Flaw Text
  | .start, [] => .ok []
  | .inside .., [] => .error .truncated
  | .start, b :: rest =>
    let n := b.toNat
    if n < 0x80 then (decodeFrom .start rest).map (Char.ofNat n :: ·)
    else match State.ofLead? n with
      | none => .error .badStart
      | some state => decodeFrom state rest
  | .inside owed low high acc, b :: rest =>
    let n := b.toNat
    if low ≤ n ∧ n ≤ high then
      let acc := acc * 64 + (n - 0x80)
      match owed with
      | 0 => (decodeFrom .start rest).map (Char.ofNat acc :: ·)
      | owed + 1 => decodeFrom (.inside owed 0x80 0xBF acc) rest
    else .error .badContinuation

def decode (bytes : List UInt8) : Except Flaw Text := decodeFrom .start bytes

end FragmentRouting.Utf8
