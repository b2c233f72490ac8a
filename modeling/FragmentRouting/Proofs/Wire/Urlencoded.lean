import FragmentRouting.Proofs.Except
import FragmentRouting.Proofs.Wire.Percent
import FragmentRouting.Wire.Pairs

namespace FragmentRouting.Wire

def isFramed (c : Char) : Bool := isWritten c || c == '=' || c == '&'

def isUpperHex (c : Char) : Bool := ('0' ≤ c && c ≤ '9') || ('A' ≤ c && c ≤ 'F')

theorem isFramed_of_isUpperHex {c : Char} (h : isUpperHex c = true) : isFramed c = true := by
  have alphanumeric : c.isAlphanum = true := by
    rw [Text.isAlphanum_iff]
    simp only [isUpperHex, Bool.or_eq_true, Bool.and_eq_true, decide_eq_true_eq] at h
    rcases h with ⟨low, high⟩ | ⟨low, high⟩
    · exact .inr (.inr ⟨low, high⟩)
    · exact .inl ⟨low, Nat.le_trans high (by decide)⟩
  simp only [isFramed, isWritten, alphanumeric, Bool.true_or]

/-- A text of the characters of queries in which two upper-case hexadecimal digits follow every
percent sign. -/
inductive Urlencoded : Text → Prop
  | nil : Urlencoded []
  | plain {c : Char} {t : Text} (framed : isFramed c = true) (other : c ≠ '%')
      (rest : Urlencoded t) : Urlencoded (c :: t)
  | escape {a b : Char} {t : Text} (high : isUpperHex a = true) (low : isUpperHex b = true)
      (rest : Urlencoded t) : Urlencoded ('%' :: a :: b :: t)

namespace Urlencoded

variable {s t : Text}

theorem append (hs : Urlencoded s) (ht : Urlencoded t) : Urlencoded (s ++ t) := by
  induction hs with
  | nil => exact ht
  | plain framed other _ ih => exact .plain framed other ih
  | escape high low _ ih => exact .escape high low ih

theorem joinWith {c : Char} (framed : isFramed c = true) (other : c ≠ '%') {ps : List Text}
    (each : ∀ p ∈ ps, Urlencoded p) : Urlencoded (Text.joinWith [c] ps) := by
  induction ps with
  | nil => exact .nil
  | cons p ps ih =>
      obtain ⟨first, each⟩ := List.forall_mem_cons.mp each
      cases ps with
      | nil =>
          rw [Text.joinWith, List.intercalate_singleton]
          exact first
      | cons q ps =>
          rw [Text.joinWith, List.intercalate_cons_cons, List.append_assoc]
          exact first.append (.plain framed other (ih each))

theorem isFramed (h : Urlencoded t) : ∀ c ∈ t, isFramed c = true := by
  induction h with
  | nil => exact List.forall_mem_nil _
  | plain framed _ _ ih => exact List.forall_mem_cons.mpr ⟨framed, ih⟩
  | escape high low _ ih =>
      simp only [List.forall_mem_cons]
      exact ⟨rfl, isFramed_of_isUpperHex high, isFramed_of_isUpperHex low, ih⟩

end Urlencoded

theorem isUpperHex_upperHexDigit : ∀ d : Fin 16, isUpperHex (upperHexDigit d) = true := by
  decide

theorem urlencoded_quoteByte (b : UInt8) : Urlencoded (quoteByte b) := by
  obtain ⟨plain, same⟩ | ⟨-, same⟩ | ⟨high, low, -, same⟩ := quoteByte_cases b
  · have written := isWritten_of_isUnreserved plain
    have framed : isFramed (Char.ofNat b.toNat) = true := by
      rw [isFramed, written, Bool.true_or, Bool.true_or]
    rw [same]
    exact .plain framed (ne_of_isUnreserved plain).1 .nil
  · rw [same]
    exact .plain rfl (by decide) .nil
  · rw [same]
    exact .escape (isUpperHex_upperHexDigit high) (isUpperHex_upperHexDigit low) .nil

theorem urlencoded_quoteBytes (bytes : List UInt8) : Urlencoded (quoteBytes bytes) := by
  induction bytes with
  | nil => exact .nil
  | cons b bytes ih => exact (urlencoded_quoteByte b).append ih

variable {encoding : Encoding} {w : Text}

theorem exists_bytes_of_quote {t : Text} (h : quote encoding t = .ok w) :
    ∃ bytes, w = quoteBytes bytes := by
  unfold quote at h
  split at h
  next => exact ⟨[], (Except.ok.inj h).symm⟩
  next =>
      obtain ⟨charset, -, h⟩ := bind_eq_ok_iff.mp h
      obtain ⟨bytes, -, h⟩ := bind_eq_ok_iff.mp h
      exact ⟨bytes, (Except.ok.inj h).symm⟩

theorem exists_bytes_of_quoteKey {key : Value} (h : quoteKey encoding key = .ok w) :
    ∃ bytes, w = quoteBytes bytes := by
  unfold quoteKey at h
  split at h
  next => exact exists_bytes_of_quote h
  next bytes _ => exact ⟨bytes, (Except.ok.inj h).symm⟩
  next => cases h
  next => cases h

theorem urlencoded_writePair {pair : Pair Value} (h : writePair encoding pair = .ok w) :
    Urlencoded w := by
  unfold writePair at h
  split at h
  next =>
      obtain ⟨bytes, rfl⟩ := exists_bytes_of_quoteKey h
      exact urlencoded_quoteBytes bytes
  next =>
      obtain ⟨key, hkey, h⟩ := bind_eq_ok_iff.mp h
      obtain ⟨value, hvalue, h⟩ := bind_eq_ok_iff.mp h
      obtain ⟨keyBytes, rfl⟩ := exists_bytes_of_quoteKey hkey
      obtain ⟨valueBytes, rfl⟩ := exists_bytes_of_quote hvalue
      rw [← Except.ok.inj h]
      exact (urlencoded_quoteBytes keyBytes).append
        (.plain rfl (by decide) (urlencoded_quoteBytes valueBytes))

theorem urlencoded_writePairs {pairs : List (Pair Value)} (h : writePairs encoding pairs = .ok w) :
    Urlencoded w := by
  obtain ⟨ps, written, h⟩ := bind_eq_ok_iff.mp h
  rw [← Except.ok.inj h]
  apply Urlencoded.joinWith rfl (by decide)
  intro p hp
  obtain ⟨pair, -, same⟩ := exists_argument_of_mapM written hp
  exact urlencoded_writePair same

/-- A query that was written holds no question mark, no line feed and no other special character,
whatever its pairs and its encoding. -/
theorem isFramed_of_mem_writePairs {pairs : List (Pair Value)}
    (h : writePairs encoding pairs = .ok w) : ∀ c ∈ w, isFramed c = true :=
  (urlencoded_writePairs h).isFramed

end FragmentRouting.Wire
