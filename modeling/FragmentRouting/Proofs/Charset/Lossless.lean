import FragmentRouting.Proofs.Charset.Utf8
import FragmentRouting.Proofs.Except

namespace FragmentRouting

theorem Char.ofNat_toNat_byte {c : Char} (small : c.toNat < 0x100) :
    Char.ofNat (UInt8.ofNat c.toNat).toNat = c := by
  rw [Utf8.toNat_ofNat_byte small, Char.ofNat_toNat]

theorem Windows1252.toNat_lt_of_isCommon {n : Nat} (common : isCommon n = true) : n < 0x100 := by
  simp only [isCommon, Bool.or_eq_true, Bool.and_eq_true, decide_eq_true_eq] at common
  omega

theorem Windows1252.decodeByte?_of_encodeChar? {c : Char} {b : UInt8}
    (h : encodeChar? c = some b) : decodeByte? b = some c := by
  have listed : ∀ pair ∈ typographic, decodeByte? (.ofNat pair.1) = some (.ofNat pair.2) := by
    decide +kernel
  unfold encodeChar? at h
  split at h
  next common =>
      have small := toNat_lt_of_isCommon common
      rw [← Option.some.inj h, decodeByte?, Utf8.toNat_ofNat_byte small, if_pos common,
        Char.ofNat_toNat]
  next =>
      obtain ⟨pair, found, rfl⟩ := Option.map_eq_some_iff.mp h
      have same := List.find?_some found
      rw [beq_iff_eq] at same
      rw [listed pair (List.mem_of_find?_eq_some found), same, Char.ofNat_toNat]

namespace Charset

variable {charset : Charset}

theorem decode_of_encodeChar? {c : Char} {bytes : List UInt8}
    (h : charset.encodeChar? c = some bytes) (rest : List UInt8) :
    charset.decode (bytes ++ rest) = (charset.decode rest).map (c :: ·) := by
  cases charset with
  | utf8 =>
      rw [← Option.some.inj h, decode, decode, Utf8.decode, Utf8.decodeFrom_encodeChar]
      change _ = (Except.mapError _ (Utf8.decodeFrom .start rest)).map _
      cases Utf8.decodeFrom .start rest <;> rfl
  | latin1 =>
      obtain ⟨small, same⟩ := Option.ite_none_right_eq_some.mp h
      rw [← Option.some.inj same]
      exact congrArg (fun d => Except.ok (d :: _)) (Char.ofNat_toNat_byte small)
  | ascii =>
      obtain ⟨small, same⟩ := Option.ite_none_right_eq_some.mp h
      rw [← Option.some.inj same]
      have byte : (UInt8.ofNat c.toNat).toNat = c.toNat := Utf8.toNat_ofNat_byte (by omega)
      apply mapM_cons_ok
      rw [byte, if_pos small, Char.ofNat_toNat]
  | windows1252 =>
      obtain ⟨b, byte, rfl⟩ := Option.map_eq_some_iff.mp h
      apply mapM_cons_ok
      rw [Windows1252.decodeByte?_of_encodeChar? byte]

theorem decode_of_encodeFrom {position : Nat} {t : Text} {bytes : List UInt8}
    (h : charset.encodeFrom position t = .ok bytes) : charset.decode bytes = .ok t := by
  induction t generalizing position bytes with
  | nil =>
      rw [← Except.ok.inj h]
      cases charset <;> rfl
  | cons c t ih =>
      unfold encodeFrom at h
      split at h
      next here =>
          obtain ⟨others, rest, rfl⟩ := map_eq_ok_iff.mp h
          rw [decode_of_encodeChar? here, ih rest]
          rfl
      next => cases h

/-- What a set wrote it reads as the same text. -/
theorem decode_of_encode {t : Text} {bytes : List UInt8} (h : charset.encode t = .ok bytes) :
    charset.decode bytes = .ok t := decode_of_encodeFrom h

theorem eq_of_encode {s t : Text} {bytes : List UInt8} (hs : charset.encode s = .ok bytes)
    (ht : charset.encode t = .ok bytes) : s = t :=
  Except.ok.inj ((decode_of_encode hs).symm.trans (decode_of_encode ht))

theorem encodeChar?_ascii {c : Char} (h : c.toNat < 0x80) :
    charset.encodeChar? c = some [.ofNat c.toNat] := by
  cases charset with
  | utf8 => exact congrArg some (Utf8.encodeChar_ascii h)
  | latin1 => exact if_pos (by omega)
  | ascii => exact if_pos h
  | windows1252 =>
      have common : Windows1252.isCommon c.toNat = true := by
        rw [Windows1252.isCommon, decide_eq_true h, Bool.true_or]
      rw [encodeChar?, Windows1252.encodeChar?, if_pos common, Option.map_some]

theorem encode_ascii {t : Text} (h : ∀ c ∈ t, c.toNat < 0x80) :
    charset.encode t = .ok (t.map fun c => .ofNat c.toNat) := by
  unfold encode
  generalize 0 = position
  induction t generalizing position with
  | nil => rfl
  | cons c t ih =>
      obtain ⟨here, others⟩ := List.forall_mem_cons.mp h
      have letter : charset.encodeLetter? c = some [.ofNat c.toNat] := encodeChar?_ascii here
      simp only [encodeFrom, letter, ih others]
      rfl

end Charset

end FragmentRouting
