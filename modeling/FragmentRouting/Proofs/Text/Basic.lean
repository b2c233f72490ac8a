import FragmentRouting.Text.Property
import Mathlib

namespace FragmentRouting.Text

theorem isAlphanum_iff (c : Char) :
    c.isAlphanum = true ↔
      (65 ≤ c.toNat ∧ c.toNat ≤ 90) ∨ (97 ≤ c.toNat ∧ c.toNat ≤ 122) ∨
        (48 ≤ c.toNat ∧ c.toNat ≤ 57) := by
  simp only [Char.isAlphanum, Char.isAlpha, Char.isUpper, Char.isLower, Char.isDigit,
    Bool.or_eq_true, Bool.and_eq_true, decide_eq_true_eq, ge_iff_le, UInt32.le_iff_toNat_le,
    or_assoc]
  rfl

theorem exists_range_of_inRanges {ranges : List (Nat × Nat)} {n : Nat}
    (h : inRanges ranges n = true) : ∃ range ∈ ranges, range.1 ≤ n ∧ n ≤ range.2 := by
  induction ranges with
  | nil => cases h
  | cons range ranges ih =>
      rw [inRanges] at h
      split at h
      next => cases h
      next first =>
          rw [Bool.or_eq_true, decide_eq_true_eq] at h
          rcases h with last | h
          · exact ⟨range, List.mem_cons_self, Nat.not_lt.mp first, last⟩
          · obtain ⟨other, member, bounds⟩ := ih h
            exact ⟨other, List.mem_cons_of_mem range member, bounds⟩

theorem isWord_of_isBlank {c : Char} (blank : isBlank c = true) : isWord c = false := by
  have none_ : (blankRanges.flatMap fun range => List.range' range.1 (range.2 + 1 - range.1)).all
      (fun n => !inRanges alphanumericRanges n) = true := by decide +kernel
  obtain ⟨range, member, first, last⟩ := exists_range_of_inRanges blank
  have listed : c.toNat ∈ blankRanges.flatMap fun range =>
      List.range' range.1 (range.2 + 1 - range.1) := by
    refine List.mem_flatMap.mpr ⟨range, member, List.mem_range'_1.mpr ⟨first, ?_⟩⟩
    omega
  have outside := List.all_eq_true.mp none_ c.toNat listed
  rw [Bool.not_eq_true'] at outside
  have underscore : c ≠ '_' := by
    rintro rfl
    exact absurd blank (by decide)
  rw [isWord, isAlphanumeric, outside, Bool.false_or, beq_eq_false_iff_ne]
  exact underscore

theorem cut_induction (c : Char) {motive : Text → Prop} (whole : ∀ t, c ∉ t → motive t)
    (cut : ∀ u v, c ∉ u → motive v → motive (u ++ c :: v)) (t : Text) : motive t := by
  induction size : t.length using Nat.strongRecOn generalizing t with
  | _ n shorter =>
      by_cases h : c ∈ t
      · obtain ⟨u, v, rfl, first⟩ := List.eq_append_cons_of_mem h
        have less : v.length < n := by
          rw [List.length_append, List.length_cons] at size
          omega
        exact cut u v first (shorter v.length less v rfl)
      · exact whole t h

theorem dropLead_append {c d : Char} (differs : d ≠ c) (t u : Text) :
    dropLead c (t ++ d :: u) = dropLead c t ++ d :: u := by
  cases t with
  | nil => exact if_neg differs
  | cons e t =>
      rw [List.cons_append, dropLead, dropLead]
      split
      · rfl
      · rfl

theorem dropLead_of_head? {c : Char} {t : Text} (other : t.head? ≠ some c) : dropLead c t = t := by
  cases t with
  | nil => rfl
  | cons d t => exact if_neg fun same => other (congrArg some same)

theorem dropLead_suffix (c : Char) (t : Text) : dropLead c t <:+ t := by
  cases t with
  | nil => exact List.suffix_refl []
  | cons d t =>
      by_cases same : d = c
      · exact ⟨[d], congrArg (d :: ·) (if_pos same)⟩
      · exact ⟨[], if_neg same⟩

theorem trimEnd_prefix (t : Text) : trimEnd t <+: t := List.rdropWhile_prefix isBlank t

theorem trimEnd_append {c : Char} (shown : isBlank c = false) (t u : Text) :
    trimEnd (t ++ c :: u) = t ++ c :: trimEnd u := by
  have stops : (c :: t.reverse).dropWhile isBlank = c :: t.reverse :=
    List.dropWhile_cons_of_neg (Bool.eq_false_iff.mp shown)
  rw [trimEnd, trimEnd, List.reverse_append, List.reverse_cons, List.append_assoc,
    List.singleton_append, List.dropWhile_append, stops]
  split
  next blank =>
      rw [List.isEmpty_iff.mp blank, List.reverse_cons, List.reverse_reverse]
      rfl
  next =>
      rw [List.reverse_append, List.reverse_cons, List.reverse_reverse, List.append_assoc]
      rfl

theorem trimEnd_eq_self_iff {t : Text} :
    trimEnd t = t ↔ ∀ shown : t ≠ [], isBlank (t.getLast shown) = false := by
  have ends := List.rdropWhile_eq_self_iff (p := isBlank) (l := t)
  simp only [Bool.not_eq_true] at ends
  exact ends

theorem trimEnd_of_suffix {t u : Text} (trimmed : trimEnd t = t) (ends : u <:+ t) :
    trimEnd u = u := by
  rw [trimEnd_eq_self_iff] at trimmed ⊢
  intro shown
  obtain ⟨front, rfl⟩ := ends
  have last := trimmed (List.append_ne_nil_of_right_ne_nil front shown)
  rw [List.getLast_append_of_ne_nil _ shown] at last
  exact last

theorem getLast?_ne_of_trimEnd {t : Text} (trimmed : trimEnd t = t) {c : Char}
    (blank : isBlank c = true) : t.getLast? ≠ some c := by
  intro last
  obtain ⟨front, rfl⟩ := List.getLast?_eq_some_iff.mp last
  have ends := trimEnd_eq_self_iff.mp trimmed (List.append_ne_nil_of_right_ne_nil _ nofun)
  rw [List.getLast_concat, blank] at ends
  exact Bool.false_ne_true ends.symm

end FragmentRouting.Text
