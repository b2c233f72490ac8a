import Mathlib

namespace FragmentRouting

variable {ε α β : Type}

@[simp] theorem ok_bind (a : α) (f : α → Except ε β) : (Except.ok a >>= f) = f a := rfl

theorem bind_eq_ok_iff {x : Except ε α} {f : α → Except ε β} {b : β} :
    (x >>= f) = .ok b ↔ ∃ a, x = .ok a ∧ f a = .ok b := by
  constructor
  · intro h
    cases x with
    | error e => cases h
    | ok a => exact ⟨a, rfl, h⟩
  · rintro ⟨a, rfl, h⟩
    exact h

theorem bind_eq_error_iff {x : Except ε α} {f : α → Except ε β} {e : ε} :
    (x >>= f) = .error e ↔ x = .error e ∨ ∃ a, x = .ok a ∧ f a = .error e := by
  cases x with
  | error e' =>
      refine ⟨fun h => .inl (congrArg _ (Except.error.inj h)), ?_⟩
      rintro (h | ⟨a, same, -⟩)
      · exact congrArg _ (Except.error.inj h)
      · cases same
  | ok a =>
      constructor
      · intro h
        exact .inr ⟨a, rfl, h⟩
      · rintro (h | ⟨a', same, h⟩)
        · cases h
        · rw [Except.ok.inj same]
          exact h

theorem map_eq_ok_iff {x : Except ε α} {f : α → β} {b : β} :
    x.map f = .ok b ↔ ∃ a, x = .ok a ∧ f a = b := by
  constructor
  · intro h
    cases x with
    | error e => cases h
    | ok a => exact ⟨a, rfl, Except.ok.inj h⟩
  · rintro ⟨a, rfl, rfl⟩
    rfl

theorem map_eq_error_iff {x : Except ε α} {f : α → β} {e : ε} :
    x.map f = .error e ↔ x = .error e := by
  cases x with
  | error e' => exact ⟨fun same => congrArg Except.error (Except.error.inj same), congrArg _⟩
  | ok a => exact ⟨nofun, nofun⟩

theorem mapError_eq_ok_iff {ε' : Type} {x : Except ε α} {f : ε → ε'} {a : α} :
    x.mapError f = .ok a ↔ x = .ok a := by
  cases x with
  | error e => exact ⟨nofun, nofun⟩
  | ok b => exact ⟨fun h => congrArg _ (Except.ok.inj h), fun h => congrArg _ (Except.ok.inj h)⟩

theorem mapError_eq_error_iff {ε' : Type} {x : Except ε α} {f : ε → ε'} {e' : ε'} :
    x.mapError f = .error e' ↔ ∃ e, x = .error e ∧ f e = e' := by
  constructor
  · intro h
    cases x with
    | error e => exact ⟨e, rfl, Except.error.inj h⟩
    | ok a => cases h
  · rintro ⟨e, rfl, rfl⟩
    rfl

theorem mapM_eq_ok_iff {f : α → Except ε β} {xs : List α} {ys : List β} :
    xs.mapM f = .ok ys ↔ List.Forall₂ (fun x y => f x = .ok y) xs ys := by
  induction xs generalizing ys with
  | nil =>
      rw [List.mapM_nil, List.forall₂_nil_left_iff]
      exact ⟨fun h => (Except.ok.inj h).symm, fun h => h ▸ rfl⟩
  | cons x xs ih =>
      simp only [List.mapM_cons, bind_eq_ok_iff, ih, List.forall₂_cons_left_iff]
      constructor
      · rintro ⟨y, hy, rest, hrest, same⟩
        exact ⟨y, rest, hy, hrest, (Except.ok.inj same).symm⟩
      · rintro ⟨y, rest, hy, hrest, rfl⟩
        exact ⟨y, hy, rest, hrest, rfl⟩

theorem mapM_cons_ok {f : α → Except ε β} {x : α} {y : β} {xs : List α} (first : f x = .ok y) :
    (x :: xs).mapM f = (xs.mapM f).map (y :: ·) := by
  rw [List.mapM_cons, first]
  rfl

theorem exists_argument_of_mapM {f : α → Except ε β} {xs : List α} {ys : List β}
    (h : xs.mapM f = .ok ys) {y : β} (hy : y ∈ ys) : ∃ x ∈ xs, f x = .ok y := by
  induction mapM_eq_ok_iff.mp h with
  | nil => cases hy
  | cons first rest ih =>
      rcases List.mem_cons.mp hy with rfl | hy
      · exact ⟨_, List.mem_cons_self, first⟩
      · obtain ⟨x, hx, same⟩ := ih (mapM_eq_ok_iff.mpr rest) hy
        exact ⟨x, List.mem_cons_of_mem _ hx, same⟩

theorem exists_result_of_mapM {f : α → Except ε β} {xs : List α} {ys : List β}
    (h : xs.mapM f = .ok ys) {x : α} (hx : x ∈ xs) : ∃ y ∈ ys, f x = .ok y := by
  induction mapM_eq_ok_iff.mp h with
  | nil => cases hx
  | cons first rest ih =>
      rcases List.mem_cons.mp hx with rfl | hx
      · exact ⟨_, List.mem_cons_self, first⟩
      · obtain ⟨y, hy, same⟩ := ih (mapM_eq_ok_iff.mpr rest) hx
        exact ⟨y, List.mem_cons_of_mem _ hy, same⟩

theorem mapM_ok {f : α → Except ε β} {g : α → β} {xs : List α} (h : ∀ x ∈ xs, f x = .ok (g x)) :
    xs.mapM f = .ok (xs.map g) := by
  rw [mapM_eq_ok_iff, List.forall₂_map_right_iff, List.forall₂_same]
  exact h

theorem mapM_image {α' β' : Type} {f : α → Except ε β} {f' : α' → Except ε β'} {g : α → α'}
    {h : β → β'} (same : ∀ a, f' (g a) = (f a).map h) (l : List α) :
    (l.map g).mapM f' = (l.mapM f).map (List.map h) := by
  induction l with
  | nil => rfl
  | cons a l ih =>
      rw [List.map_cons, List.mapM_cons, List.mapM_cons, same, ih]
      cases f a with
      | error e => rfl
      | ok b => cases l.mapM f <;> rfl

theorem exists_mapM_eq_ok_iff {f : α → Except ε β} {xs : List α} :
    (∃ ys, xs.mapM f = .ok ys) ↔ ∀ x ∈ xs, ∃ y, f x = .ok y := by
  constructor
  · rintro ⟨ys, h⟩ x hx
    obtain ⟨y, -, same⟩ := exists_result_of_mapM h hx
    exact ⟨y, same⟩
  · intro h
    induction xs with
    | nil => exact ⟨[], rfl⟩
    | cons x xs ih =>
        obtain ⟨⟨y, first⟩, others⟩ := List.forall_mem_cons.mp h
        obtain ⟨ys, rest⟩ := ih others
        exact ⟨y :: ys, mapM_eq_ok_iff.mpr (.cons first (mapM_eq_ok_iff.mp rest))⟩

theorem exists_argument_of_mapM_error {f : α → Except ε β} {xs : List α} {e : ε}
    (h : xs.mapM f = .error e) : ∃ x ∈ xs, f x = .error e := by
  induction xs with
  | nil => cases h
  | cons x xs ih =>
      rw [List.mapM_cons] at h
      rcases bind_eq_error_iff.mp h with first | ⟨y, -, h⟩
      · exact ⟨x, List.mem_cons_self, first⟩
      · rcases bind_eq_error_iff.mp h with others | ⟨ys, -, h⟩
        · obtain ⟨x', hx', same⟩ := ih others
          exact ⟨x', List.mem_cons_of_mem x hx', same⟩
        · cases h

theorem foldlM_ok {ε σ α : Type} {step : σ → α → Except ε σ} {next : σ → α → σ}
    (h : ∀ s a, step s a = .ok (next s a)) (l : List α) (s : σ) :
    l.foldlM step s = .ok (l.foldl next s) := by
  induction l generalizing s with
  | nil => rfl
  | cons a l ih => rw [List.foldlM_cons, h, ok_bind, ih, List.foldl_cons]

/-- What every step keeps holds at the end of a run that succeeds. -/
theorem foldlM_invariant {ε σ α : Type} {step : σ → α → Except ε σ} (inv : σ → Prop) {l : List α}
    (kept : ∀ a ∈ l, ∀ s s', inv s → step s a = .ok s' → inv s') {s s' : σ} (start : inv s)
    (run : l.foldlM step s = .ok s') : inv s' := by
  induction l generalizing s with
  | nil =>
      have same : s = s' := Except.ok.inj run
      rw [← same]
      exact start
  | cons a l ih =>
      obtain ⟨here, others⟩ := List.forall_mem_cons.mp kept
      rw [List.foldlM_cons] at run
      obtain ⟨s₁, first, rest⟩ := bind_eq_ok_iff.mp run
      exact ih others (here s s₁ start first) rest

end FragmentRouting
