import FragmentRouting.Proofs.Pattern.Ways

namespace FragmentRouting.Pattern

/-- Whether all slots of a pattern are among some. -/
def SlotsIn (among : Nat → Prop) : Pattern → Prop
  | .empty | .one _ | .start | .finish => True
  | .seq p q | .choice p q => SlotsIn among p ∧ SlotsIn among q
  | .group slot p => among slot ∧ SlotsIn among p
  | .repeated _ _ _ p => SlotsIn among p

theorem SlotsIn.mono {among more : Nat → Prop} (wider : ∀ slot, among slot → more slot)
    {p : Pattern} (h : SlotsIn among p) : SlotsIn more p := by
  induction p with
  | empty | one | start | finish => trivial
  | seq p q ihp ihq => exact ⟨ihp h.1, ihq h.2⟩
  | choice p q ihp ihq => exact ⟨ihp h.1, ihq h.2⟩
  | group slot p ih => exact ⟨wider slot h.1, ih h.2⟩
  | repeated least bound preference p ih => exact ih h

theorem slotsIn_true (p : Pattern) : SlotsIn (fun _ => True) p := by
  induction p with
  | empty | one | start | finish => trivial
  | seq p q ihp ihq => exact ⟨ihp, ihq⟩
  | choice p q ihp ihq => exact ⟨ihp, ihq⟩
  | group slot p ih => exact ⟨trivial, ih⟩
  | repeated least bound preference p ih => exact ih

theorem slotsIn_seqAll {among : Nat → Prop} {ps : List Pattern} :
    SlotsIn among (seqAll ps) ↔ ∀ p ∈ ps, SlotsIn among p := by
  induction ps with
  | nil => exact ⟨nofun, fun _ => trivial⟩
  | cons p ps ih =>
      rw [List.forall_mem_cons, ← ih]
      cases ps with
      | nil => exact (and_iff_left trivial).symm
      | cons q ps => rfl

/-- A relation between places that can be followed through any number of rounds. -/
structure Chained (R : Place → Place → Prop) : Prop where
  refl : ∀ s, R s s
  trans : ∀ {s s' s''}, R s s' → R s' s'' → R s s''

/-- A relation between places that survives what a pattern with slots among some can do. -/
structure Kept (among : Nat → Prop) (R : Place → Place → Prop) : Prop extends Chained R where
  one : ∀ {s c rest}, s.rest = c :: rest →
    R s { s with position := s.position + 1, rest := rest }
  capture : ∀ {s slot covered}, among slot →
    R s { s with captures := s.captures.set slot covered }

/-- A relation that holds between every place and the places that it leads to. -/
def Along (R : Place → Place → Prop) (w : Ways) : Prop := ∀ s, ∀ s' ∈ w s, R s s'

theorem mem_ordered {moreFirst : Bool} {onward : List Place} {s s' : Place} :
    s' ∈ ordered moreFirst onward s ↔ s' ∈ onward ∨ s' = s := by
  cases moreFirst with
  | true => simp only [ordered, if_true, List.mem_append, List.mem_singleton]
  | false =>
      simp only [ordered, Bool.false_eq_true, if_false, List.mem_cons]
      exact or_comm

theorem search_some (w : Ways) (s : Place) : search w some s = (w s).head? := by
  rw [search]
  cases w s <;> rfl

namespace Chained

variable {R : Place → Place → Prop} {w : Ways}

theorem ordered (kept : Chained R) {moreFirst : Bool} {onward : List Place} {s : Place}
    (h : ∀ s' ∈ onward, R s s') : ∀ s' ∈ Pattern.ordered moreFirst onward s, R s s' := by
  intro s' member
  rcases mem_ordered.mp member with member | rfl
  · exact h s' member
  · exact kept.refl s'

theorem onward (kept : Chained R) (hw : Along R w) {again : Ways} (hagain : Along R again)
    (s : Place) : ∀ s' ∈ (w s).flatMap fun s₁ =>
      if s.position < s₁.position then again s₁ else [s₁], R s s' := by
  intro s' member
  obtain ⟨s₁, first, member⟩ := List.mem_flatMap.mp member
  have start := hw s s₁ first
  split at member
  · exact kept.trans start (hagain s₁ s' member)
  · rw [List.mem_singleton.mp member]
    exact start

theorem loopWays (kept : Chained R) (hw : Along R w) (moreFirst : Bool) (room : Nat) :
    Along R (loopWays moreFirst w room) := by
  induction room with
  | zero =>
      intro s
      exact kept.ordered (hw s)
  | succ room ih =>
      intro s
      exact kept.ordered (kept.onward hw ih s)

theorem boundedWays (kept : Chained R) (hw : Along R w) (moreFirst : Bool) (bound : Nat) :
    Along R (boundedWays moreFirst w bound) := by
  induction bound with
  | zero =>
      intro s s' member
      rw [List.mem_singleton.mp member]
      exact kept.refl s
  | succ bound ih =>
      intro s
      exact kept.ordered (kept.onward hw ih s)

theorem exactWays (kept : Chained R) (hw : Along R w) (count : Nat) :
    Along R (exactWays w count) := by
  induction count with
  | zero =>
      intro s s' member
      rw [List.mem_singleton.mp member]
      exact kept.refl s
  | succ count ih =>
      intro s s' member
      obtain ⟨s₁, first, member⟩ := List.mem_flatMap.mp member
      exact kept.trans (hw s s₁ first) (ih s₁ s' member)

theorem search (hw : Along R w) {s s' : Place} (h : search w some s = some s') : R s s' := by
  rw [search_some] at h
  exact hw s s' (List.mem_of_head? h)

theorem allRounds (kept : Chained R) (hw : Along R w) (bound : Nat) (s : Place) :
    R s (allRounds (Pattern.search w) bound s) := by
  induction bound generalizing s with
  | zero => exact kept.refl s
  | succ bound ih =>
      rw [Pattern.allRounds]
      split
      next => exact kept.refl s
      next s₁ first =>
          have start := Chained.search hw first
          split
          · exact kept.trans start (ih s₁)
          · exact start

theorem firstRounds (kept : Chained R) (hw : Along R w) (count : Nat) {s s' : Place}
    (h : firstRounds (Pattern.search w) count s = some s') : R s s' := by
  induction count generalizing s with
  | zero =>
      rw [Pattern.firstRounds, Option.some.injEq] at h
      rw [h]
      exact kept.refl s'
  | succ count ih =>
      rw [Pattern.firstRounds, Option.bind_eq_some_iff] at h
      obtain ⟨s₁, first, others⟩ := h
      exact kept.trans (Chained.search hw first) (ih others)

theorem repeated (kept : Chained R) {p : Pattern} (hp : Along R p.ways) (least : Nat)
    (bound : Option Nat) (preference : Preference) :
    Along R (Pattern.repeated least bound preference p).ways := by
  intro s s' member
  cases preference with
  | most =>
      rw [Pattern.ways, Option.mem_toList, Option.map_eq_some_iff] at member
      obtain ⟨s₁, rounds, rfl⟩ := member
      exact kept.trans (kept.firstRounds hp least rounds) (kept.allRounds hp _ s₁)
  | more =>
      cases bound with
      | none =>
          obtain ⟨s₁, rounds, member⟩ := List.mem_flatMap.mp member
          exact kept.trans (kept.exactWays hp least s s₁ rounds)
            (kept.loopWays hp true _ s₁ s' member)
      | some bound =>
          obtain ⟨s₁, rounds, member⟩ := List.mem_flatMap.mp member
          exact kept.trans (kept.exactWays hp least s s₁ rounds)
            (kept.boundedWays hp true _ s₁ s' member)
  | fewer =>
      cases bound with
      | none =>
          obtain ⟨s₁, rounds, member⟩ := List.mem_flatMap.mp member
          exact kept.trans (kept.exactWays hp least s s₁ rounds)
            (kept.loopWays hp false _ s₁ s' member)
      | some bound =>
          obtain ⟨s₁, rounds, member⟩ := List.mem_flatMap.mp member
          exact kept.trans (kept.exactWays hp least s s₁ rounds)
            (kept.boundedWays hp false _ s₁ s' member)

end Chained

theorem Kept.ways {among : Nat → Prop} {R : Place → Place → Prop} (kept : Kept among R)
    (p : Pattern) (inside : SlotsIn among p) : Along R p.ways := by
  induction p with
  | empty =>
      intro s s' member
      rw [List.mem_singleton.mp member]
      exact kept.refl s
  | one cls =>
      intro s s' member
      rw [Pattern.ways] at member
      split at member
      next => exact absurd member List.not_mem_nil
      next c rest text =>
          split at member
          · rw [List.mem_singleton.mp member]
            exact kept.one text
          · exact absurd member List.not_mem_nil
  | start =>
      intro s s' member
      rw [Pattern.ways] at member
      split at member
      · rw [List.mem_singleton.mp member]
        exact kept.refl s
      · exact absurd member List.not_mem_nil
  | finish =>
      intro s s' member
      rw [Pattern.ways] at member
      split at member
      · rw [List.mem_singleton.mp member]
        exact kept.refl s
      · exact absurd member List.not_mem_nil
  | seq p q ihp ihq =>
      intro s s' member
      obtain ⟨s₁, first, member⟩ := List.mem_flatMap.mp member
      exact kept.trans (ihp inside.1 s s₁ first) (ihq inside.2 s₁ s' member)
  | choice p q ihp ihq =>
      intro s s' member
      rcases List.mem_append.mp member with member | member
      · exact ihp inside.1 s s' member
      · exact ihq inside.2 s s' member
  | group slot p ih =>
      intro s s' member
      obtain ⟨s₁, reached, rfl⟩ := List.mem_map.mp member
      exact kept.trans (ih inside.2 s s₁ reached) (kept.capture inside.1)
  | repeated least bound preference p ih =>
      exact kept.toChained.repeated (ih inside) least bound preference

/-- One place lies before another in a text, or is the same. -/
def Place.Precedes (s s' : Place) : Prop :=
  ∃ passed, s.rest = passed ++ s'.rest ∧ s'.position = s.position + passed.length

theorem kept_precedes : Kept (fun _ => True) Place.Precedes where
  refl s := ⟨[], rfl, rfl⟩
  trans := by
    rintro s s' s'' ⟨u, first, position⟩ ⟨v, second, further⟩
    refine ⟨u ++ v, ?_, ?_⟩
    · rw [first, second, List.append_assoc]
    · rw [further, position, List.length_append, Nat.add_assoc]
  one {s c rest} text := ⟨[c], text, rfl⟩
  capture _ := ⟨[], rfl, rfl⟩

theorem ways_precedes (p : Pattern) : Along Place.Precedes p.ways :=
  kept_precedes.ways p (slotsIn_true p)

theorem kept_length :
    Kept (fun _ => True) (fun s s' => s'.captures.length = s.captures.length) where
  refl _ := rfl
  trans first second := second.trans first
  one _ := rfl
  capture _ := List.length_set

theorem ways_length (p : Pattern) : Along (fun s s' => s'.captures.length = s.captures.length)
    p.ways :=
  kept_length.ways p (slotsIn_true p)

theorem kept_capture (slot : Nat) :
    Kept (fun used => used ≠ slot) (fun s s' => s'.captures[slot]? = s.captures[slot]?) where
  refl _ := rfl
  trans first second := second.trans first
  one _ := rfl
  capture differ := List.getElem?_set_ne differ

theorem ways_capture {p : Pattern} {slot : Nat} (h : SlotsIn (fun used => used ≠ slot) p) :
    Along (fun s s' => s'.captures[slot]? = s.captures[slot]?) p.ways :=
  (kept_capture slot).ways p h

theorem kept_captures :
    Kept (fun _ => False) (fun s s' => s'.captures = s.captures) where
  refl _ := rfl
  trans first second := second.trans first
  one _ := rfl
  capture used := used.elim

theorem ways_captures {p : Pattern} (h : SlotsIn (fun _ => False) p) :
    Along (fun s s' => s'.captures = s.captures) p.ways :=
  kept_captures.ways p h

theorem Place.Precedes.length_lt {s s' : Place} (h : s.Precedes s')
    (advanced : s.position < s'.position) : s'.rest.length < s.rest.length := by
  obtain ⟨passed, text, position⟩ := h
  rw [text, List.length_append]
  omega

theorem loopWays_room {w : Ways} (hw : Along Place.Precedes w) (moreFirst : Bool) (room : Nat) :
    ∀ (more : Nat) (s : Place), s.rest.length ≤ room → s.rest.length ≤ more →
      loopWays moreFirst w room s = loopWays moreFirst w more s := by
  -- A round that consumes nothing ends the loop, and any other one leaves less text.
  have stays (s s' : Place) (member : s' ∈ w s) (noText : s.rest.length ≤ 0) :
      ¬ s.position < s'.position := by
    intro advanced
    have := (hw s s' member).length_lt advanced
    omega
  have last (s : Place) (again : Ways) (noText : s.rest.length ≤ 0) :
      ((w s).flatMap fun s' => if s.position < s'.position then again s' else [s']) = w s := by
    rw [List.flatMap_congr (g := fun s' => [s'])]
    · exact List.flatMap_singleton' (w s)
    · intro s' member
      rw [if_neg (stays s s' member noText)]
  induction room with
  | zero =>
      intro more s enough _
      cases more with
      | zero => rfl
      | succ more => rw [loopWays, loopWays, last s _ enough]
  | succ room ih =>
      intro more s enough enoughMore
      cases more with
      | zero => rw [loopWays, loopWays, last s _ enoughMore]
      | succ more =>
          rw [loopWays, loopWays]
          apply congrArg (ordered moreFirst · s)
          apply List.flatMap_congr
          intro s' member
          by_cases advanced : s.position < s'.position
          · have shorter := (hw s s' member).length_lt advanced
            rw [if_pos advanced, if_pos advanced]
            exact ih more s' (by omega) (by omega)
          · rw [if_neg advanced, if_neg advanced]

end FragmentRouting.Pattern
