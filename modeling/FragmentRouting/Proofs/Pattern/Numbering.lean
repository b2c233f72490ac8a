import FragmentRouting.Proofs.Pattern.Reader

namespace FragmentRouting.Pattern

theorem slots_choiceAll (ps : List Pattern) : (choiceAll ps).slots = (ps.map slots).sum := by
  induction ps with
  | nil => rfl
  | cons p ps ih =>
      rw [List.map_cons, List.sum_cons, ← ih]
      cases ps with
      | nil => rfl
      | cons q ps => rfl

def Level.size (level : Level) : Nat := (level.choices.map slots).sum + level.taken

def Group.size (g : Group) : Nat := g.around.size + if g.slot.isSome then 1 else 0

/-- Whether the slots given out are those of the groups read or open. -/
def Reader.Numbered (r : Reader) : Prop :=
  r.level.size + (r.groups.map Group.size).sum = r.slots

theorem Level.slots_current (level : Level) : level.current.slots = level.taken :=
  Level.slots_patterns

theorem Level.slots_pattern (level : Level) : level.pattern.slots = level.size := by
  rw [pattern, slots_choiceAll, List.map_reverse, List.sum_reverse, List.map_cons, List.sum_cons,
    slots_current, size, Nat.add_comm]

theorem Level.size_push (level : Level) (part : Part) :
    (level.push part).size = part.pattern.slots + level.size := by
  have same : (level.push part).choices = level.choices := rfl
  rw [size, taken_push, same, size]
  omega

namespace Reader

variable {r r' : Reader}

theorem numbered_empty : ({} : Reader).Numbered := rfl

theorem Numbered.push (h : r.Numbered) {part : Part} (none_ : part.pattern.slots = 0) :
    (r.push part).Numbered := by
  have same : (r.level.push part).size = r.level.size := by
    rw [Level.size_push, none_, Nat.zero_add]
  exact (congrArg (· + _) same).trans h

theorem Numbered.opening (h : r.Numbered) (captures : Bool) (opened : Nat) :
    Reader.Numbered
      { level := {}
        groups := ⟨opened, if captures then some r.slots else none, r.level⟩ :: r.groups
        slots := if captures then r.slots + 1 else r.slots } := by
  have empty : ({} : Level).size = 0 := rfl
  have total : r.level.size + (r.groups.map Group.size).sum = r.slots := h
  rw [Numbered, empty, List.map_cons, List.sum_cons, Group.size]
  cases captures with
  | true =>
      simp only [if_true, Option.isSome_some]
      omega
  | false =>
      simp only [Bool.false_eq_true, if_false, Option.isSome_none]
      omega

theorem Numbered.bar (h : r.Numbered) :
    Reader.Numbered
      { r with level := { choices := r.level.current :: r.level.choices, parts := [] } } := by
  have same : Level.size { choices := r.level.current :: r.level.choices, parts := [] } =
      r.level.size := by
    rw [Level.size, List.map_cons, List.sum_cons, Level.slots_current, Level.size]
    change r.level.taken + _ + 0 = _
    omega
  exact (congrArg (· + _) same).trans h

theorem Numbered.close (h : r.Numbered) (closed : r.close = .ok r') : r'.Numbered := by
  obtain ⟨level, groups, slots⟩ := r
  cases groups with
  | nil => cases closed
  | cons g rest =>
      obtain ⟨opened, slot, around⟩ := g
      have total : level.size + (((⟨opened, slot, around⟩ : Group).size) ::
        rest.map Group.size).sum = slots := h
      rw [List.sum_cons, Group.size] at total
      cases slot with
      | none =>
          rw [← Except.ok.inj closed]
          change (around.push (.plain level.pattern)).size + (rest.map Group.size).sum = slots
          rw [Level.size_push, Part.pattern, Level.slots_pattern]
          simp only [Option.isSome_none, Bool.false_eq_true, if_false] at total
          omega
      | some slot =>
          rw [← Except.ok.inj closed]
          change (around.push (.plain (.group slot level.pattern))).size +
            (rest.map Group.size).sum = slots
          rw [Level.size_push, Part.pattern, Pattern.slots, Level.slots_pattern]
          simp only [Option.isSome_some, if_true] at total
          omega

theorem Numbered.quantify (h : r.Numbered) {least : Nat} {bound : Option Nat}
    {preference : Preference} (quantified : r.quantify least bound preference = .ok r') :
    r'.Numbered := by
  obtain ⟨⟨choices, parts⟩, groups, slots⟩ := r
  cases parts with
  | nil => cases quantified
  | cons part rest =>
      cases part with
      | anchor p => cases quantified
      | repeated p => cases quantified
      | plain p =>
          rw [← Except.ok.inj quantified]
          exact h

theorem Numbered.step (h : r.Numbered) {token : Token × Nat} (taken : r.step token = .ok r') :
    r'.Numbered := by
  obtain ⟨kind, position⟩ := token
  cases kind with
  | one cls =>
      rw [← Except.ok.inj taken]
      exact h.push rfl
  | start =>
      rw [← Except.ok.inj taken]
      exact h.push rfl
  | finish =>
      rw [← Except.ok.inj taken]
      exact h.push rfl
  | opening captures =>
      rw [← Except.ok.inj taken]
      exact h.opening captures position
  | closing => exact h.close (mapError_eq_ok_iff.mp taken)
  | bar =>
      rw [← Except.ok.inj taken]
      exact h.bar
  | quantifier least bound preference => exact h.quantify (mapError_eq_ok_iff.mp taken)
  | flawed flaw => cases taken

theorem Numbered.run (h : r.Numbered) {located : List (Token × Nat)}
    (taken : located.foldlM Reader.step r = .ok r') : r'.Numbered :=
  foldlM_invariant Reader.Numbered (fun _ _ _ _ before step => before.step step) h taken

end Reader

end FragmentRouting.Pattern
