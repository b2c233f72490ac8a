import FragmentRouting.Text.Search
import Mathlib

namespace FragmentRouting.Text

variable {shape replacement : Text}

theorem replaceFrom_covered (u t : Text) :
    replaceFrom shape replacement u.length (u ++ t) = replaceFrom shape replacement 0 t := by
  induction u with
  | nil => rfl
  | cons c u ih => exact ih

theorem occurrencesFrom_covered (u t : Text) :
    occurrencesFrom shape u.length (u ++ t) = occurrencesFrom shape 0 t := by
  induction u with
  | nil => rfl
  | cons c u ih => exact ih

/-- Whether no occurrence of a shape starts in a text, if another text follows. -/
def Avoids (shape : Text) : Text → Text → Prop
  | [], _ => True
  | c :: u, t => shape.isPrefixOf (c :: (u ++ t)) = false ∧ Avoids shape u t

instance (shape : Text) : (u t : Text) → Decidable (Avoids shape u t)
  | [], _ => .isTrue trivial
  | _ :: u, t =>
    have := instDecidableAvoids shape u t
    inferInstanceAs (Decidable (_ ∧ _))

/-- What a scan for a shape finds in a text, and what it leaves in its place. -/
structure Scanned (shape replacement t result : Text) (found : Nat) : Prop where
  replaced : replaceFrom shape replacement 0 t = result
  counted : occurrencesFrom shape 0 t = found

namespace Scanned

variable {t result : Text} {found : Nat}

theorem nil : Scanned shape replacement [] [] 0 := ⟨rfl, rfl⟩

theorem skip {u : Text} (avoids : Avoids shape u t)
    (h : Scanned shape replacement t result found) :
    Scanned shape replacement (u ++ t) (u ++ result) found := by
  induction u with
  | nil => exact h
  | cons c u ih =>
      have rest := ih avoids.2
      have here : ¬ shape.isPrefixOf (c :: (u ++ t)) = true := Bool.eq_false_iff.mp avoids.1
      constructor
      · rw [List.cons_append, replaceFrom, if_neg here, rest.replaced]
        rfl
      · rw [List.cons_append, occurrencesFrom, if_neg here, rest.counted]

theorem occurrence (nonempty : shape ≠ []) (h : Scanned shape replacement t result found) :
    Scanned shape replacement (shape ++ t) (replacement ++ result) (found + 1) := by
  cases shape with
  | nil => exact absurd rfl nonempty
  | cons c u =>
      have here : (c :: u).isPrefixOf (c :: (u ++ t)) = true :=
        List.isPrefixOf_iff_prefix.mpr (List.prefix_append (c :: u) t)
      constructor
      · rw [List.cons_append, replaceFrom, if_pos here, List.length_cons, Nat.add_sub_cancel,
          replaceFrom_covered, h.replaced]
      · rw [List.cons_append, occurrencesFrom, if_pos here, List.length_cons, Nat.add_sub_cancel,
          occurrencesFrom_covered, h.counted]

end Scanned

variable {delimiter : Text}

theorem splitFrom_ne_nil (covered : Nat) (t : Text) : splitFrom delimiter covered t ≠ [] := by
  induction covered, t using splitFrom.induct delimiter with
  | case1 covered => exact List.cons_ne_nil _ _
  | case2 covered c t ih => exact ih
  | case3 c t here ih =>
      rw [splitFrom, if_pos here]
      exact List.cons_ne_nil _ _
  | case4 c t other ih =>
      rw [splitFrom, if_neg other]
      obtain ⟨first, rest, same⟩ := List.exists_cons_of_ne_nil ih
      rw [same]
      exact List.cons_ne_nil _ _

theorem joinWith_modifyHead {c : Char} {parts : List Text} (some_ : parts ≠ []) :
    joinWith delimiter (parts.modifyHead (c :: ·)) = c :: joinWith delimiter parts := by
  match parts with
  | [] => exact absurd rfl some_
  | [part] => rfl
  | part :: second :: rest =>
      rw [List.modifyHead_cons, joinWith, joinWith, List.intercalate_cons_cons,
        List.intercalate_cons_cons]
      rfl

theorem joinWith_splitFrom (nonempty : delimiter ≠ []) (covered : Nat) (t : Text) :
    joinWith delimiter (splitFrom delimiter covered t) = t.drop covered := by
  induction covered, t using splitFrom.induct delimiter with
  | case1 covered => rw [List.drop_nil]; rfl
  | case2 covered c t ih => exact ih
  | case3 c t here ih =>
      obtain ⟨rest, whole⟩ := List.isPrefixOf_iff_prefix.mp here
      have size := List.length_pos_of_ne_nil nonempty
      have others : t.drop (delimiter.length - 1) = rest := by
        rw [← List.drop_succ_cons (a := c), ← whole, Nat.sub_add_cancel size, List.drop_left]
      rw [splitFrom, if_pos here, joinWith,
        List.intercalate_cons_of_ne_nil (splitFrom_ne_nil _ t)]
      rw [joinWith] at ih
      rw [ih, others, List.nil_append, whole]
      rfl
  | case4 c t other ih =>
      rw [splitFrom, if_neg other, joinWith_modifyHead (splitFrom_ne_nil 0 t), ih]
      rfl

theorem joinWith_splitAtAll (nonempty : delimiter ≠ []) (t : Text) :
    joinWith delimiter (splitAtAll delimiter t) = t := joinWith_splitFrom nonempty 0 t

theorem splitFrom_covered (u t : Text) :
    splitFrom delimiter u.length (u ++ t) = splitFrom delimiter 0 t := by
  induction u with
  | nil => rfl
  | cons c u ih => exact ih

theorem splitFrom_skip {u t : Text} (avoids : Avoids delimiter u t) :
    splitFrom delimiter 0 (u ++ t) = (splitFrom delimiter 0 t).modifyHead (u ++ ·) := by
  induction u with
  | nil => exact (congrFun List.modifyHead_id _).symm
  | cons c u ih =>
      rw [List.cons_append, splitFrom, if_neg (Bool.eq_false_iff.mp avoids.1), ih avoids.2,
        List.modifyHead_modifyHead]
      rfl

theorem splitFrom_delimiter (nonempty : delimiter ≠ []) (t : Text) :
    splitFrom delimiter 0 (delimiter ++ t) = [] :: splitFrom delimiter 0 t := by
  cases delimiter with
  | nil => exact absurd rfl nonempty
  | cons c u =>
      have here : (c :: u).isPrefixOf (c :: (u ++ t)) = true :=
        List.isPrefixOf_iff_prefix.mpr (List.prefix_append (c :: u) t)
      rw [List.cons_append, splitFrom, if_pos here, List.length_cons, Nat.add_sub_cancel,
        splitFrom_covered]

/-- No occurrence starts in a text that shares no character with the shape. -/
theorem avoids_of_disjoint (nonempty : shape ≠ []) {u : Text} (disjoint : shape.Disjoint u)
    (t : Text) : Avoids shape u t := by
  induction u with
  | nil => trivial
  | cons c u ih =>
      obtain ⟨here, others⟩ := List.disjoint_cons_right.mp disjoint
      refine ⟨?_, ih others⟩
      cases shape with
      | nil => exact absurd rfl nonempty
      | cons a shape =>
          rw [List.isPrefixOf_cons_cons, Bool.and_eq_false_iff, beq_eq_false_iff_ne]
          exact .inl (List.ne_of_not_mem_cons here).symm

/-- Parts that share no character with the delimiter are kept apart by it. -/
theorem splitAtAll_joinWith (nonempty : delimiter ≠ []) {parts : List Text} (some_ : parts ≠ [])
    (disjoint : ∀ part ∈ parts, delimiter.Disjoint part) :
    splitAtAll delimiter (joinWith delimiter parts) = parts := by
  unfold splitAtAll joinWith
  induction parts with
  | nil => exact absurd rfl some_
  | cons part parts ih =>
      obtain ⟨first, others⟩ := List.forall_mem_cons.mp disjoint
      have skip := fun t => splitFrom_skip (avoids_of_disjoint nonempty first t)
      cases parts with
      | nil =>
          have alone := skip []
          rw [List.append_nil] at alone
          rw [List.intercalate_singleton, alone, splitFrom, List.modifyHead_cons, List.append_nil]
      | cons second parts =>
          -- No occurrence starts in the first part, so the first one is the delimiter behind it.
          rw [List.intercalate_cons_cons, List.append_assoc, skip, splitFrom_delimiter nonempty,
            List.modifyHead_cons, List.append_nil, ih (List.cons_ne_nil _ _) others]

theorem not_mem_of_mem_splitAtAll {d : Char} {t part : Text} (h : part ∈ splitAtAll [d] t) :
    d ∉ part := by
  unfold splitAtAll at h
  induction t generalizing part with
  | nil =>
      rw [List.mem_singleton.mp h]
      exact List.not_mem_nil
  | cons c t ih =>
      unfold splitFrom at h
      split at h
      next =>
          rcases List.mem_cons.mp h with rfl | h
          · exact List.not_mem_nil
          · exact ih h
      next other =>
          obtain ⟨first, rest, same⟩ := List.exists_cons_of_ne_nil (splitFrom_ne_nil 0 t)
          rw [same, List.modifyHead_cons] at h
          rw [same] at ih
          rcases List.mem_cons.mp h with rfl | h
          · rw [List.mem_cons, not_or]
            refine ⟨?_, ih List.mem_cons_self⟩
            rintro rfl
            exact other (List.isPrefixOf_iff_prefix.mpr ⟨t, rfl⟩)
          · exact ih (List.mem_cons_of_mem _ h)

theorem occursIn_iff {t : Text} : occursIn shape t = true ↔ shape <:+: t := by
  induction t with
  | nil => rw [occursIn, List.isEmpty_iff, List.infix_nil]
  | cons c t ih =>
      rw [occursIn, Bool.or_eq_true, ih, List.isPrefixOf_iff_prefix, List.infix_cons_iff]

theorem isPrefixOf_cons_cons_of_ne {a c d : Char} {shape t : Text}
    (differs : c = a → t.head? ≠ some d) : (a :: d :: shape).isPrefixOf (c :: t) = false := by
  rw [List.isPrefixOf_cons_cons, Bool.and_eq_false_iff]
  by_cases first : c = a
  · right
    cases t with
    | nil => rfl
    | cons e t =>
        rw [List.isPrefixOf_cons_cons, Bool.and_eq_false_iff, beq_eq_false_iff_ne]
        left
        intro second
        exact differs first (congrArg some second.symm)
  · left
    rw [beq_eq_false_iff_ne]
    exact Ne.symm first

end FragmentRouting.Text
