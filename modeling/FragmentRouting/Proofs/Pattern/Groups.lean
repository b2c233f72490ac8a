import FragmentRouting.Proofs.Pattern.Language

namespace FragmentRouting.Pattern

/-- The groups of a pattern with their slots, in the order of their opening parentheses. -/
def groups : Pattern → List (Pattern × Nat)
  | .empty | .one _ | .start | .finish => []
  | .seq p q | .choice p q => p.groups ++ q.groups
  | .group slot p => (p, slot) :: p.groups
  | .repeated _ _ _ p => p.groups

theorem length_groups (p : Pattern) : p.groups.length = p.slots := by
  induction p with
  | empty | one | start | finish => rfl
  | seq p q ihp ihq => rw [groups, List.length_append, ihp, ihq, slots]
  | choice p q ihp ihq => rw [groups, List.length_append, ihp, ihq, slots]
  | group slot p ih => rw [groups, List.length_cons, ih, slots]
  | repeated least bound preference p ih => exact ih

theorem groups_seqAll_cons (p : Pattern) (ps : List Pattern) :
    (seqAll (p :: ps)).groups = p.groups ++ (seqAll ps).groups := by
  cases ps with
  | nil => exact (List.append_nil _).symm
  | cons q ps => rfl

theorem groups_seqAll_append (ps qs : List Pattern) :
    (seqAll (ps ++ qs)).groups = (seqAll ps).groups ++ (seqAll qs).groups := by
  induction ps with
  | nil => rfl
  | cons p ps ih =>
      rw [List.cons_append, groups_seqAll_cons, groups_seqAll_cons, ih, List.append_assoc]

/-- Whether a slot keeps a part of a text that a group with this slot covers. -/
def Covers (gs : List (Pattern × Nat)) (text : Text) (slot : Nat) (v : Text) : Prop :=
  ∃ body, (body, slot) ∈ gs ∧ v ∈ body.language ∧ v <:+: text

/-- Whether one place lies behind another, and its slots keep what they kept there or what groups
cover from there on. -/
structure Place.Fills (gs : List (Pattern × Nat)) (s s' : Place) : Prop where
  precedes : s.Precedes s'
  captures : ∀ slot v, s'.captures[slot]? = some (some v) →
    s.captures[slot]? = some (some v) ∨ Covers gs s.rest slot v

variable {gs : List (Pattern × Nat)}

theorem Place.Fills.of_captures {s s' : Place} (precedes : s.Precedes s')
    (same : s'.captures = s.captures) : s.Fills gs s' where
  precedes := precedes
  captures := by
    intro slot v kept
    rw [same] at kept
    exact .inl kept

theorem chained_fills : Chained (Place.Fills gs) where
  refl s := .of_captures (kept_precedes.refl s) rfl
  trans := by
    rintro s s' s'' ⟨precedes, before⟩ ⟨precedes', behind⟩
    refine ⟨kept_precedes.trans precedes precedes', fun slot v kept => ?_⟩
    rcases behind slot v kept with kept | ⟨body, listed, covered, part⟩
    · exact before slot v kept
    · obtain ⟨passed, text, _⟩ := precedes
      refine .inr ⟨body, listed, covered, part.trans ?_⟩
      rw [text]
      exact (List.suffix_append _ _).isInfix

theorem Place.Fills.fill {s s' : Place} (fills : s.Fills gs s') {p : Pattern} {slot : Nat}
    (listed : (p, slot) ∈ gs) {u : Text} (inside : u ∈ p.language)
    (text : s.rest = u ++ s'.rest) :
    s.Fills gs { s' with
      captures := s'.captures.set slot (some (s.rest.take (s'.position - s.position))) } := by
  refine ⟨fills.precedes, fun other v kept => ?_⟩
  rw [fills.precedes.covered text] at kept
  by_cases here : slot = other
  · rw [← here, List.getElem?_set_self'] at kept
    obtain ⟨_, _, filled⟩ := Option.map_eq_some_iff.mp kept
    rw [← Option.some.inj filled, ← here, text]
    exact .inr ⟨p, listed, inside, (List.prefix_append _ _).isInfix⟩
  · rw [List.getElem?_set_ne here] at kept
    exact fills.captures other v kept

/-- A match fills slots with what their groups cover. -/
theorem ways_fills {p : Pattern} (regular : Regular p) (among : p.groups ⊆ gs) :
    Along (Place.Fills gs) p.ways := by
  induction p with
  | empty =>
      intro s s' member
      exact .of_captures (ways_precedes .empty s s' member) (by rw [List.mem_singleton.mp member])
  | one cls =>
      intro s s' member
      have captures := ways_captures (p := .one cls) trivial s s' member
      exact .of_captures (ways_precedes (.one cls) s s' member) captures
  | start => exact regular.elim
  | finish => exact regular.elim
  | seq p q ihp ihq =>
      obtain ⟨first, second⟩ := List.append_subset.mp among
      intro s s' member
      obtain ⟨s₁, reached, member⟩ := List.mem_flatMap.mp member
      exact chained_fills.trans (ihp regular.1 first s s₁ reached)
        (ihq regular.2 second s₁ s' member)
  | choice p q ihp ihq =>
      obtain ⟨first, second⟩ := List.append_subset.mp among
      intro s s' member
      rcases List.mem_append.mp member with member | member
      · exact ihp regular.1 first s s' member
      · exact ihq regular.2 second s s' member
  | group slot p ih =>
      obtain ⟨listed, inner⟩ := List.cons_subset.mp among
      intro s s' member
      obtain ⟨s₁, reached, rfl⟩ := List.mem_map.mp member
      have regular : Regular p := regular
      have fills := ih regular inner s s₁ reached
      obtain ⟨u, inside, text⟩ := (reads_language regular).sound s s₁ reached
      exact fills.fill listed inside text
  | repeated least bound preference p ih =>
      exact chained_fills.repeated (ih regular.2 among) least bound preference

/-- A match of a pattern between two anchors has a capture for each slot, and each of them that is
not missing is covered by a group of the pattern. -/
theorem captures_anchored {ps : List Pattern} (regular : Regular (seqAll ps)) {text : Text}
    {captures : List (Option Text)}
    (matched : (seqAll (.start :: (ps ++ [.finish]))).captures? text = some captures) :
    captures.length = (seqAll ps).slots ∧
      ∀ slot v, captures[slot]? = some (some v) → Covers (seqAll ps).groups text slot v := by
  rw [captures?_anchored, Option.map_eq_some_iff] at matched
  obtain ⟨s, found, rfl⟩ := matched
  have reached := List.mem_of_find?_eq_some found
  have fills := ways_fills regular (List.Subset.refl _) _ s reached
  refine ⟨?_, fun slot v kept => ?_⟩
  · rw [ways_length _ _ s reached, Place.ofText, List.length_replicate]
  · rcases fills.captures slot v kept with empty | covers
    · have nothing := List.eq_of_mem_replicate (List.mem_of_getElem? empty)
      cases nothing
    · exact covers

end FragmentRouting.Pattern
