import FragmentRouting.Charset.Basic
import Mathlib

namespace FragmentRouting.Utf8

theorem toNat_ofNat_byte {n : Nat} (h : n < 0x100) : (UInt8.ofNat n).toNat = n := by
  rw [UInt8.toNat_ofNat']
  exact Nat.mod_eq_of_lt h

theorem decodeFrom_ascii {n : Nat} (h : n < 0x80) (rest : List UInt8) :
    decodeFrom .start (.ofNat n :: rest) = (decodeFrom .start rest).map (Char.ofNat n :: ·) := by
  have same := toNat_ofNat_byte (n := n) (by omega)
  simp only [decodeFrom, same, h, if_true]

theorem decodeFrom_lead {n : Nat} {state : State} (bounds : 0x80 ≤ n ∧ n < 0x100)
    (lead : State.ofLead? n = some state) (rest : List UInt8) :
    decodeFrom .start (.ofNat n :: rest) = decodeFrom state rest := by
  have same := toNat_ofNat_byte bounds.2
  have big : ¬ n < 0x80 := by omega
  simp only [decodeFrom, same, big, if_false, lead]

theorem decodeFrom_inside {owed low high acc n : Nat} (bounds : low ≤ n ∧ n ≤ high)
    (byte : n < 0x100) (rest : List UInt8) :
    decodeFrom (.inside (owed + 1) low high acc) (.ofNat n :: rest) =
      decodeFrom (.inside owed 0x80 0xBF (acc * 64 + (n - 0x80))) rest := by
  simp only [decodeFrom, toNat_ofNat_byte byte, bounds, and_self, if_true]

theorem decodeFrom_last {low high acc n : Nat} (bounds : low ≤ n ∧ n ≤ high)
    (byte : n < 0x100) (rest : List UInt8) :
    decodeFrom (.inside 0 low high acc) (.ofNat n :: rest) =
      (decodeFrom .start rest).map (Char.ofNat (acc * 64 + (n - 0x80)) :: ·) := by
  simp only [decodeFrom, toNat_ofNat_byte byte, bounds, and_self, if_true]

theorem codePoint_valid (c : Char) :
    c.toNat < 0xD800 ∨ 0xDFFF < c.toNat ∧ c.toNat < 0x110000 := c.valid

theorem decodeFrom_two {n : Nat} (low : 0x80 ≤ n) (high : n < 0x800) (rest : List UInt8) :
    decodeFrom .start (.ofNat (0xC0 + n / 64) :: .ofNat (0x80 + n % 64) :: rest) =
      (decodeFrom .start rest).map (Char.ofNat n :: ·) := by
  have lead : State.ofLead? (0xC0 + n / 64) = some (.inside 0 0x80 0xBF (n / 64)) := by
    unfold State.ofLead?
    rw [if_neg (by omega), if_pos (by omega), Nat.add_sub_cancel_left]
  have whole : n / 64 * 64 + (0x80 + n % 64 - 0x80) = n := by omega
  rw [decodeFrom_lead (by omega) lead, decodeFrom_last (by omega) (by omega), whole]

/-- The first continuation byte of a longer form is bounded so that no shorter form and no
surrogate is written in it. -/
theorem decodeFrom_three {n : Nat} (low : 0x800 ≤ n) (high : n < 0x10000)
    (valid : n < 0xD800 ∨ 0xDFFF < n) (rest : List UInt8) :
    decodeFrom .start
        (.ofNat (0xE0 + n / 4096) :: .ofNat (0x80 + n / 64 % 64) :: .ofNat (0x80 + n % 64) ::
          rest) =
      (decodeFrom .start rest).map (Char.ofNat n :: ·) := by
  have lead : State.ofLead? (0xE0 + n / 4096) =
      some (.inside 1 (if 0xE0 + n / 4096 = 0xE0 then 0xA0 else 0x80)
        (if 0xE0 + n / 4096 = 0xED then 0x9F else 0xBF) (n / 4096)) := by
    unfold State.ofLead?
    rw [if_neg (by omega), if_neg (by omega), if_pos (by omega), Nat.add_sub_cancel_left]
  have whole : (n / 4096 * 64 + (0x80 + n / 64 % 64 - 0x80)) * 64 + (0x80 + n % 64 - 0x80) = n := by
    omega
  rw [decodeFrom_lead (by omega) lead, decodeFrom_inside (by split <;> split <;> omega) (by omega),
    decodeFrom_last (by omega) (by omega), whole]

theorem decodeFrom_four {n : Nat} (low : 0x10000 ≤ n) (high : n < 0x110000) (rest : List UInt8) :
    decodeFrom .start
        (.ofNat (0xF0 + n / 262144) :: .ofNat (0x80 + n / 4096 % 64) ::
          .ofNat (0x80 + n / 64 % 64) :: .ofNat (0x80 + n % 64) :: rest) =
      (decodeFrom .start rest).map (Char.ofNat n :: ·) := by
  have lead : State.ofLead? (0xF0 + n / 262144) =
      some (.inside 2 (if 0xF0 + n / 262144 = 0xF0 then 0x90 else 0x80)
        (if 0xF0 + n / 262144 = 0xF4 then 0x8F else 0xBF) (n / 262144)) := by
    unfold State.ofLead?
    rw [if_neg (by omega), if_neg (by omega), if_neg (by omega), if_pos (by omega),
      Nat.add_sub_cancel_left]
  have whole : ((n / 262144 * 64 + (0x80 + n / 4096 % 64 - 0x80)) * 64 +
      (0x80 + n / 64 % 64 - 0x80)) * 64 + (0x80 + n % 64 - 0x80) = n := by omega
  rw [decodeFrom_lead (by omega) lead, decodeFrom_inside (by split <;> split <;> omega) (by omega),
    decodeFrom_inside (by omega) (by omega), decodeFrom_last (by omega) (by omega), whole]

theorem decodeFrom_encodeChar (c : Char) (rest : List UInt8) :
    decodeFrom .start (encodeChar c ++ rest) = (decodeFrom .start rest).map (c :: ·) := by
  have valid := codePoint_valid c
  have back : Char.ofNat c.toNat = c := Char.ofNat_toNat c
  unfold encodeChar
  dsimp only
  split
  · next h => rw [List.singleton_append, decodeFrom_ascii h, back]
  split
  · next h => exact (decodeFrom_two (by omega) h rest).trans (by rw [back])
  split
  · next h => exact (decodeFrom_three (by omega) h (by omega) rest).trans (by rw [back])
  · exact (decodeFrom_four (by omega) (by omega) rest).trans (by rw [back])

/-- Writing and reading give the same text. -/
theorem decode_encode (t : Text) : decode (encode t) = .ok t := by
  unfold decode encode
  induction t with
  | nil => rfl
  | cons c t ih => rw [List.flatMap_cons, decodeFrom_encodeChar, ih]; rfl

theorem encode_injective {s t : Text} (h : encode s = encode t) : s = t := by
  have same : decode (encode s) = decode (encode t) := congrArg decode h
  rw [decode_encode, decode_encode] at same
  exact Except.ok.inj same

theorem encodeChar_ascii {c : Char} (h : c.toNat < 0x80) : encodeChar c = [.ofNat c.toNat] := by
  simp only [encodeChar, h, if_true]

end FragmentRouting.Utf8

namespace FragmentRouting.Charset

theorem encodeFrom_utf8 (position : Nat) (t : Text) :
    encodeFrom .utf8 position t = .ok (Utf8.encode t) := by
  induction t generalizing position with
  | nil => rfl
  | cons c t ih =>
      have letter : encodeLetter? .utf8 c = some (Utf8.encodeChar c) := rfl
      simp only [encodeFrom, letter, ih, Except.map, Utf8.encode, List.flatMap_cons]

theorem encode_utf8 (t : Text) : encode .utf8 t = .ok (Utf8.encode t) := encodeFrom_utf8 0 t

end FragmentRouting.Charset
