import FragmentRouting.Proofs.Pattern.Progress

/-!
Characters that a pattern cannot pass over. What stands behind such a character has no influence on
the ways in which the pattern matches before it: they are the same and come in the same order.
-/
namespace FragmentRouting.Pattern

/-- Whether a pattern neither passes over a character nor looks for the end of the text. -/
def Stops (c : Char) : Pattern → Prop
  | .empty | .start => True
  | .one cls => cls.contains c = false
  | .finish => False
  | .seq p q | .choice p q => Stops c p ∧ Stops c q
  | .group _ p => Stops c p
  | .repeated _ _ preference p => preference ≠ .most ∧ Stops c p

theorem stops_seqAll {c : Char} {ps : List Pattern} :
    Stops c (seqAll ps) ↔ ∀ p ∈ ps, Stops c p := by
  induction ps with
  | nil => exact ⟨nofun, fun _ => trivial⟩
  | cons p ps ih =>
      rw [List.forall_mem_cons, ← ih]
      cases ps with
      | nil => exact (and_iff_left trivial).symm
      | cons q ps => rfl

def Place.before (t : Text) (s : Place) : Place := { s with rest := s.rest ++ t }

/-- Whether more text at the end changes nothing but that it stands there. -/
def Blind (t : Text) (w : Ways) : Prop := ∀ s, w (s.before t) = (w s).map (Place.before t)

theorem ordered_before (t : Text) (moreFirst : Bool) (onward : List Place) (s : Place) :
    ordered moreFirst (onward.map (Place.before t)) (s.before t) =
      (ordered moreFirst onward s).map (Place.before t) := by
  cases moreFirst with
  | true =>
      rw [ordered, ordered, if_pos rfl, if_pos rfl, List.map_append]
      rfl
  | false =>
      rw [ordered, ordered, if_neg Bool.false_ne_true, if_neg Bool.false_ne_true, List.map_cons]

namespace Blind

variable {t : Text} {w w' : Ways}

theorem seq (hw : Blind t w) (hw' : Blind t w') : Blind t fun s => (w s).flatMap w' := by
  intro s
  simp only [hw s, List.flatMap_map, List.map_flatMap]
  apply List.flatMap_congr
  intro s' _
  exact hw' s'

theorem onward (hw : Blind t w) (hw' : Blind t w') (s : Place) :
    ((w (s.before t)).flatMap fun s' =>
        if (s.before t).position < s'.position then w' s' else [s']) =
      ((w s).flatMap fun s' => if s.position < s'.position then w' s' else [s']).map
        (Place.before t) := by
  rw [hw s, List.flatMap_map, List.map_flatMap]
  apply List.flatMap_congr
  intro s' _
  change (if s.position < s'.position then w' (s'.before t) else [s'.before t]) = _
  split
  · exact hw' s'
  · rfl

theorem loopWays (hw : Blind t w) (moreFirst : Bool) (room : Nat) :
    Blind t (loopWays moreFirst w room) := by
  induction room with
  | zero =>
      intro s
      rw [Pattern.loopWays, Pattern.loopWays, hw s, ordered_before]
  | succ room ih =>
      intro s
      rw [Pattern.loopWays, Pattern.loopWays, hw.onward ih s, ordered_before]

/-- A loop takes more rounds than it needs if there is more text, to no effect. -/
theorem loop (hw : Blind t w) (ahead : Along Place.Precedes w) (moreFirst : Bool) :
    Blind t fun s => Pattern.loopWays moreFirst w s.rest.length s := by
  intro s
  have inside : s.rest.length ≤ (s.before t).rest.length := by
    rw [Place.before, List.length_append]
    exact Nat.le_add_right _ _
  have enough := loopWays_room ahead moreFirst _ _ s inside (Nat.le_refl _)
  exact (hw.loopWays moreFirst _ s).trans (congrArg (List.map (Place.before t)) enough)

theorem boundedWays (hw : Blind t w) (moreFirst : Bool) (bound : Nat) :
    Blind t (boundedWays moreFirst w bound) := by
  induction bound with
  | zero =>
      intro s
      rfl
  | succ bound ih =>
      intro s
      rw [Pattern.boundedWays, Pattern.boundedWays, hw.onward ih s, ordered_before]

theorem exactWays (hw : Blind t w) (count : Nat) : Blind t (exactWays w count) := by
  induction count with
  | zero =>
      intro s
      rfl
  | succ count ih => exact hw.seq ih

end Blind

/-- A pattern matches before a character that stops it as if the text ended there. -/
theorem blind_ways {c : Char} {p : Pattern} (stops : Stops c p) (t : Text) :
    Blind (c :: t) p.ways := by
  induction p with
  | empty =>
      intro s
      rfl
  | one cls =>
      intro s
      have outside : cls.contains c = false := stops
      rw [ways, ways, Place.before]
      cases s.rest with
      | nil => simp only [List.nil_append, outside, Bool.false_eq_true, if_false, List.map_nil]
      | cons d rest =>
          simp only [List.cons_append]
          split
          · rfl
          · rfl
  | start =>
      intro s
      rw [ways, ways]
      change (if s.position = 0 then _ else _) = _
      split
      · rfl
      · rfl
  | finish => exact stops.elim
  | seq p q ihp ihq => exact (ihp stops.1).seq (ihq stops.2)
  | choice p q ihp ihq =>
      intro s
      rw [ways, ways, ihp stops.1 s, ihq stops.2 s, List.map_append]
  | group slot p ih =>
      intro s
      rw [ways, ways, ih stops s, List.map_map, List.map_map]
      apply List.map_congr_left
      intro s' member
      obtain ⟨passed, text, position⟩ := ways_precedes p s s' member
      have covered : (s.before (c :: t)).rest.take (s'.position - s.position) =
          s.rest.take (s'.position - s.position) := by
        rw [Place.before, text, position, Nat.add_sub_cancel_left, List.append_assoc,
          List.take_left, List.take_left]
      change ({ s' with
        rest := s'.rest ++ c :: t
        captures := s'.captures.set slot
          (some ((s.before (c :: t)).rest.take (s'.position - s.position))) } : Place) = _
      rw [covered]
      rfl
  | repeated least bound preference p ih =>
      have body := ih stops.2
      have ahead := ways_precedes p
      cases preference with
      | most => exact absurd rfl stops.1
      | more =>
          cases bound with
          | none => exact (body.exactWays least).seq (body.loop ahead true)
          | some bound => exact (body.exactWays least).seq (body.boundedWays true _)
      | fewer =>
          cases bound with
          | none => exact (body.exactWays least).seq (body.loop ahead false)
          | some bound => exact (body.exactWays least).seq (body.boundedWays false _)

end FragmentRouting.Pattern
