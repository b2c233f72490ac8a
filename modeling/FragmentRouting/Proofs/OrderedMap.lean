import FragmentRouting.Value.Basic
import Mathlib

namespace FragmentRouting.OrderedMap

/-! ### Exact keys

Keys may equal other keys, as numbers of different kinds do, or not even themselves.
-/

section Exact

variable {κ β : Type} [BEq κ]

/-- Whether a key equals itself and no other key. -/
def Exact (key : κ) : Prop := ∀ k, ((k == key) = true ↔ k = key) ∧ ((key == k) = true ↔ k = key)

/-- Whether no two entries have equal keys. -/
def Distinct (m : OrderedMap κ β) : Prop := m.Pairwise fun a b => (a.1 == b.1) = false

theorem find?_cons (key : κ) (entry : κ × β) (m : OrderedMap κ β) :
    find? key (entry :: m) = if entry.1 == key then some entry.2 else find? key m := rfl

theorem find?_append (key : κ) (m n : OrderedMap κ β) :
    find? key (m ++ n) = (find? key m).or (find? key n) := by
  induction m with
  | nil => rfl
  | cons entry m ih =>
      rw [List.cons_append, find?_cons, find?_cons]
      split
      next => rfl
      next => exact ih

theorem find?_eq_none_iff {key : κ} {m : OrderedMap κ β} :
    find? key m = none ↔ ∀ entry ∈ m, ¬ (entry.1 == key) = true := by
  induction m with
  | nil => exact iff_of_true rfl (List.forall_mem_nil _)
  | cons entry m ih =>
      rw [find?_cons, List.forall_mem_cons]
      split
      next same => exact iff_of_false nofun fun none_ => none_.1 same
      next other => rw [ih, and_iff_right other]

theorem find?_filter {key : κ} {p : κ × β → Bool} {m : OrderedMap κ β}
    (kept : ∀ entry, (entry.1 == key) = true → p entry = true) :
    find? key (m.filter p) = find? key m := by
  induction m with
  | nil => rfl
  | cons entry m ih =>
      rw [find?_cons]
      split
      next same => rw [List.filter_cons_of_pos (kept entry same), find?_cons, if_pos same]
      next other =>
          rw [List.filter_cons]
          split
          next => rw [find?_cons, if_neg other, ih]
          next => exact ih

/-- What equals another key does not equal one that is equal to itself only. -/
theorem Exact.ne_of_beq {key k other : κ} (exact_ : Exact key) (differs : k ≠ key)
    (same : (other == k) = true) : ¬ (other == key) = true := by
  intro equal
  rw [(exact_ other).1.mp equal, (exact_ k).2] at same
  exact differs same

section Update

variable {key : κ}

theorem find?_insert_self (exact_ : Exact key) (v : β) (m : OrderedMap κ β) :
    find? key (insert key v m) = some v := by
  induction m with
  | nil => rw [insert, find?_cons, if_pos ((exact_ key).1.mpr rfl)]
  | cons entry m ih =>
      rw [insert]
      split
      next same => rw [find?_cons, if_pos same]
      next other => rw [find?_cons, if_neg other, ih]

theorem find?_insert_other (exact_ : Exact key) {k : κ} (differs : k ≠ key) (v : β)
    (m : OrderedMap κ β) : find? key (insert k v m) = find? key m := by
  have apart : ¬ (k == key) = true := fun same => differs ((exact_ k).1.mp same)
  induction m with
  | nil =>
      rw [insert, find?_cons, if_neg apart]
  | cons entry m ih =>
      rw [insert]
      split
      next same =>
          have other := exact_.ne_of_beq differs same
          rw [find?_cons, find?_cons, if_neg other, if_neg other]
      next => rw [find?_cons, find?_cons, ih]

theorem find?_update (exact_ : Exact key) (m : OrderedMap κ β) (entries : List (κ × β)) :
    find? key (update m entries) = (find? key entries.reverse).or (find? key m) := by
  induction entries generalizing m with
  | nil => rfl
  | cons entry entries ih =>
      rw [update, List.foldl_cons, ← update, ih, List.reverse_cons, find?_append, Option.or_assoc]
      congr 1
      rw [find?_cons]
      split
      next same =>
          rw [(exact_ entry.1).1.mp same, find?_insert_self exact_, Option.some_or]
      next other =>
          have differs : entry.1 ≠ key := fun same => other ((exact_ entry.1).1.mpr same)
          rw [find?_insert_other exact_ differs, find?, Option.none_or]

theorem find?_ofEntries (exact_ : Exact key) (entries : List (κ × β)) :
    find? key (ofEntries entries) = find? key entries.reverse := by
  rw [ofEntries, find?_update exact_, find?, Option.or_none]

end Update

theorem mem_insert_keys {k : κ} {v : β} {m : OrderedMap κ β} {entry : κ × β}
    (member : entry ∈ insert k v m) : entry.1 = k ∨ ∃ old ∈ m, entry.1 = old.1 := by
  induction m with
  | nil => exact .inl (congrArg Prod.fst (List.mem_singleton.mp member))
  | cons first m ih =>
      rw [insert] at member
      split at member
      next =>
          rcases List.mem_cons.mp member with rfl | member
          · exact .inr ⟨first, List.mem_cons_self, rfl⟩
          · exact .inr ⟨entry, List.mem_cons_of_mem first member, rfl⟩
      next =>
          rcases List.mem_cons.mp member with rfl | member
          · exact .inr ⟨first, List.mem_cons_self, rfl⟩
          · refine (ih member).imp_right ?_
            rintro ⟨old, listed, same⟩
            exact ⟨old, List.mem_cons_of_mem first listed, same⟩

theorem distinct_insert {m : OrderedMap κ β} (distinct : Distinct m) (k : κ) (v : β) :
    Distinct (insert k v m) := by
  induction m with
  | nil => exact List.pairwise_singleton _ _
  | cons entry m ih =>
      obtain ⟨apart, distinct⟩ := List.pairwise_cons.mp distinct
      rw [insert]
      split
      next => exact List.pairwise_cons.mpr ⟨apart, distinct⟩
      next other =>
          refine List.pairwise_cons.mpr ⟨fun later member => ?_, ih distinct⟩
          rcases mem_insert_keys member with same | ⟨old, listed, same⟩
          · rw [same]
            exact Bool.eq_false_of_not_eq_true other
          · rw [same]
            exact apart old listed

theorem distinct_update {m : OrderedMap κ β} (distinct : Distinct m) (entries : List (κ × β)) :
    Distinct (update m entries) := by
  induction entries generalizing m with
  | nil => exact distinct
  | cons entry entries ih => exact ih (distinct_insert distinct entry.1 entry.2)

theorem distinct_ofEntries (entries : List (κ × β)) : Distinct (ofEntries entries) :=
  distinct_update .nil entries

theorem find?_reverse {key : κ} (exact_ : Exact key) {m : OrderedMap κ β}
    (distinct : Distinct m) : find? key m.reverse = find? key m := by
  induction m with
  | nil => rfl
  | cons entry m ih =>
      obtain ⟨apart, distinct⟩ := List.pairwise_cons.mp distinct
      rw [List.reverse_cons, find?_append, ih distinct, find?_cons, find?_cons]
      split
      next same =>
          have nothing : find? key m = none := by
            rw [find?_eq_none_iff]
            intro later member equal
            have differs := apart later member
            rw [(exact_ entry.1).1.mp same, (exact_ later.1).1.mp equal, (exact_ key).1.mpr rfl]
              at differs
            cases differs
          rw [nothing, Option.none_or]
      next => exact Option.or_none

theorem erase_eq_filter {key : κ} (exact_ : Exact key) {m : OrderedMap κ β}
    (distinct : Distinct m) : erase key m = m.filter fun entry => !(entry.1 == key) := by
  induction m with
  | nil => rfl
  | cons entry m ih =>
      obtain ⟨apart, distinct⟩ := List.pairwise_cons.mp distinct
      rw [erase]
      split
      next same =>
          have others : m.filter (fun entry => !(entry.1 == key)) = m := by
            apply List.filter_eq_self.mpr
            intro other member
            rw [Bool.not_eq_true', ← Bool.not_eq_true, (exact_ other.1).1]
            intro equal
            have differs := apart other member
            rw [equal, same] at differs
            cases differs
          rw [List.filter_cons_of_neg (fun kept => by rw [same] at kept; cases kept), others]
      next differs =>
          rw [List.filter_cons_of_pos (by rw [Bool.eq_false_iff.mpr differs]; rfl), ih distinct]

theorem distinct_erase {key : κ} (exact_ : Exact key) {m : OrderedMap κ β}
    (distinct : Distinct m) : Distinct (erase key m) := by
  rw [erase_eq_filter exact_ distinct]
  exact distinct.filter _

theorem find?_erase_of_ne {key k : κ} (exact_ : Exact key) (differs : k ≠ key)
    (m : OrderedMap κ β) : find? key (erase k m) = find? key m := by
  induction m with
  | nil => rfl
  | cons entry m ih =>
      rw [erase]
      split
      next same => rw [find?_cons, if_neg (exact_.ne_of_beq differs same)]
      next => rw [find?_cons, find?_cons, ih]

end Exact

variable {κ β : Type} [BEq κ] [LawfulBEq κ]

theorem exact_of_lawful (key : κ) : Exact key := fun _ =>
  ⟨beq_iff_eq, beq_iff_eq.trans eq_comm⟩

def keys (m : OrderedMap κ β) : List κ := m.map (·.1)

theorem not_mem_keys_cons {key k : κ} {v : β} {m : OrderedMap κ β}
    (h : key ∉ keys ((k, v) :: m)) : (k == key) = false ∧ key ∉ keys m := by
  simp only [keys, List.map_cons, List.mem_cons, not_or] at h
  exact ⟨beq_eq_false_iff_ne.mpr (Ne.symm h.1), h.2⟩

theorem distinct_iff_nodup {m : OrderedMap κ β} : Distinct m ↔ (keys m).Nodup := by
  simp only [Distinct, keys, List.Nodup, List.pairwise_map, beq_eq_false_iff_ne]

theorem find?_of_not_mem {key : κ} {m : OrderedMap κ β} (h : key ∉ keys m) :
    find? key m = none :=
  find?_eq_none_iff.mpr fun entry member same =>
    h (List.mem_map.mpr ⟨entry, member, eq_of_beq same⟩)

theorem insert_of_not_mem {key : κ} {m : OrderedMap κ β} (h : key ∉ keys m) (v : β) :
    insert key v m = m ++ [(key, v)] := by
  induction m with
  | nil => rfl
  | cons entry m ih =>
      obtain ⟨other, h⟩ := not_mem_keys_cons h
      simp only [insert, other, Bool.false_eq_true, if_false, ih h, List.cons_append]

theorem mem_of_find? {key : κ} {m : OrderedMap κ β} {v : β} (h : find? key m = some v) :
    (key, v) ∈ m := by
  induction m with
  | nil => exact absurd h nofun
  | cons entry m ih =>
      unfold find? at h
      split at h
      next same =>
          rw [← eq_of_beq same, ← Option.some.inj h]
          exact List.mem_cons_self
      next => exact List.mem_cons_of_mem entry (ih h)

theorem find?_of_mem {key : κ} {m : OrderedMap κ β} {v : β} (distinct : (keys m).Nodup)
    (h : (key, v) ∈ m) : find? key m = some v := by
  induction m with
  | nil => exact absurd h List.not_mem_nil
  | cons entry m ih =>
      obtain ⟨new, distinct⟩ := List.nodup_cons.mp distinct
      rcases List.mem_cons.mp h with rfl | h
      · simp only [find?, beq_self_eq_true, if_true]
      · have other : (entry.1 == key) = false := by
          rw [beq_eq_false_iff_ne]
          intro same
          exact new (List.mem_map.mpr ⟨(key, v), h, same.symm⟩)
        simp only [find?, other, Bool.false_eq_true, if_false, ih distinct h]

theorem mem_insert {key : κ} {v : β} {m : OrderedMap κ β} {entry : κ × β}
    (h : entry ∈ insert key v m) : entry = (key, v) ∨ entry ∈ m := by
  induction m with
  | nil => exact .inl (List.mem_singleton.mp h)
  | cons first m ih =>
      unfold insert at h
      split at h
      · next same =>
        rcases List.mem_cons.mp h with rfl | h
        · exact .inl (by rw [eq_of_beq same])
        · exact .inr (List.mem_cons_of_mem first h)
      · rcases List.mem_cons.mp h with rfl | h
        · exact .inr List.mem_cons_self
        · exact (ih h).imp_right (List.mem_cons_of_mem first)

theorem find?_insert (key : κ) (v : β) (m : OrderedMap κ β) :
    find? key (insert key v m) = some v := find?_insert_self (exact_of_lawful key) v m

theorem find?_insert_of_ne {key other : κ} (differs : other ≠ key) (v : β) (m : OrderedMap κ β) :
    find? other (insert key v m) = find? other m :=
  find?_insert_other (exact_of_lawful other) differs.symm v m

theorem insert_insert (key : κ) (v w : β) (m : OrderedMap κ β) :
    insert key w (insert key v m) = insert key w m := by
  induction m with
  | nil => simp only [insert, beq_self_eq_true, if_true]
  | cons entry m ih =>
      by_cases same : entry.1 == key
      · simp only [insert, same, if_true]
      · simp only [insert, same, if_false, ih, Bool.false_eq_true]

theorem nodup_keys_insert {m : OrderedMap κ β} (distinct : (keys m).Nodup) (key : κ) (v : β) :
    (keys (insert key v m)).Nodup :=
  distinct_iff_nodup.mp (distinct_insert (distinct_iff_nodup.mpr distinct) key v)

theorem keys_insert_of_mem {key : κ} {m : OrderedMap κ β} (h : key ∈ keys m) (v : β) :
    keys (insert key v m) = keys m := by
  induction m with
  | nil => exact absurd h List.not_mem_nil
  | cons entry m ih =>
      unfold insert
      split
      next => rfl
      next other =>
          rcases List.mem_cons.mp h with same | h
          · exact absurd (beq_iff_eq.mpr same.symm) other
          · exact congrArg (entry.1 :: ·) (ih h)

/-- A map is known by its keys and by what stands under each. -/
theorem eq_map_keys {m : OrderedMap κ β} (distinct : (keys m).Nodup) {value : κ → β}
    (found : ∀ key ∈ keys m, find? key m = some (value key)) :
    m = (keys m).map fun key => (key, value key) := by
  have whole : ∀ entry ∈ m, (entry.1, value entry.1) = entry := by
    intro entry member
    have here := found entry.1 (List.mem_map_of_mem member)
    rw [find?_of_mem distinct member] at here
    rw [← Option.some.inj here]
  rw [keys, List.map_map]
  exact ((List.map_congr_left whole).trans (List.map_id' m)).symm

end FragmentRouting.OrderedMap

namespace FragmentRouting.Value

theorem beq_text_iff {key : Value} {t : Text} : (key == .text t) = true ↔ key = .text t := by
  change sameKey key (.text t) = true ↔ _
  cases key with
  | text s => rw [sameKey, beq_iff_eq, text.injEq]
  | _ =>
      constructor
      · intro same
        simp only [sameKey, integer?, Bool.false_eq_true] at same
      · exact nofun

theorem exact_text (t : Text) : OrderedMap.Exact (Value.text t) := by
  intro key
  refine ⟨beq_text_iff, ?_⟩
  change sameKey (.text t) key = true ↔ _
  cases key with
  | text s => rw [sameKey, beq_iff_eq, text.injEq, eq_comm]
  | _ =>
      constructor
      · intro same
        simp only [sameKey, integer?, Bool.false_eq_true] at same
      · exact nofun

end FragmentRouting.Value
