import FragmentRouting.Proofs.Codec.Carried
import FragmentRouting.Proofs.Fragment.Build
import FragmentRouting.Proofs.Template.Literals

/-!
Filling a template in a single pass. A filled template is the literal parts of the template in turn
with the texts of the values, whatever these texts hold: nothing that is put in is read again.
-/
namespace FragmentRouting.Fragment

open Template (Divides Piece literals tokens weave)

/-- What is carried as one text, the items of a list joined. -/
def joinedText (delimiter : Text) : Carried → Text
  | .text t => t
  | .list ts => Text.joinWith delimiter ts

theorem pathText_eq (codec : Codec) {delimiter : Text}
    (set : codec.settings.arrayDelimiter = .text delimiter) (v : Value) :
    pathText codec v = v.carried.map (joinedText delimiter) := by
  unfold pathText Value.carried
  cases v.items? with
  | none => cases v.format <;> rfl
  | some items =>
      simp only [Codec.joinItems, set]
      cases Value.formatAll items <;> rfl

/-- The texts of values stand where the tokens stood. -/
theorem fillInOrder_eq_weave (codec : Codec) (ps : List Piece) (values : List Value) :
    fillInOrder codec ps values =
      ((values.takeD (ps.filterMap Piece.token?).length .null).mapM (pathText codec)).map
        (weave (literals ps)) := by
  induction ps generalizing values with
  | nil => rfl
  | cons p rest ih =>
      cases p with
      | literal c =>
          have names : (Piece.literal c :: rest).filterMap Piece.token? =
              rest.filterMap Piece.token? := rfl
          rw [fillInOrder, ih, names]
          cases (values.takeD (rest.filterMap Piece.token?).length .null).mapM
              (pathText codec) with
          | error fault => rfl
          | ok texts => exact congrArg Except.ok (Template.weave_literal c rest texts).symm
      | token t =>
          have names : (Piece.token t :: rest).filterMap Piece.token? =
              t :: rest.filterMap Piece.token? := rfl
          rw [fillInOrder, ih, names, List.length_cons, List.takeD_succ, List.mapM_cons]
          cases pathText codec (values.head?.getD .null) with
          | error fault => rfl
          | ok text =>
              cases (values.tail.takeD (rest.filterMap Piece.token?).length .null).mapM
                  (pathText codec) with
              | error fault => rfl
              | ok texts => rfl

theorem takeD_length_self {α : Type} (l : List α) (a : α) : l.takeD l.length a = l := by
  rw [List.takeD_eq_take a (Nat.le_refl _), List.take_length]

/-- A template is its tokens and some literal parts in turn in one way only. Filled in order without
a query, it is the same parts in turn with the texts of the values: a value that is missing leaves
an empty text, further ones are ignored, and the items of a list are joined with the delimiter. So
the texts of the tokens themselves give the template back. -/
theorem fromValues_single_pass (template : Text) :
    ∃ lits, (∀ others, Divides template others ↔ others = lits) ∧
      ∀ codec : Codec,
        (∀ values, fromValues codec template values [] =
          ((values.takeD (tokens template).length .null).mapM (pathText codec)).map
            (weave lits)) ∧
        pathText codec .null = .ok [] ∧
        (∀ delimiter, codec.settings.arrayDelimiter = .text delimiter →
          ∀ v, pathText codec v = v.carried.map (joinedText delimiter)) ∧
        fromValues codec template ((tokens template).map fun t => .text t.text) [] =
          .ok template := by
  refine ⟨literals (Template.pieces template), fun others => Template.divides_iff,
    fun codec => ?_⟩
  have filled (values : List Value) : fromValues codec template values [] =
      ((values.takeD (tokens template).length .null).mapM (pathText codec)).map
        (weave (literals (Template.pieces template))) := by
    rw [fromValues, fillInOrder_eq_weave, ← tokens]
    cases (values.takeD (tokens template).length .null).mapM (pathText codec) with
    | error fault => rfl
    | ok texts => rfl
  refine ⟨filled, rfl, fun delimiter set => pathText_eq codec set, ?_⟩
  have own : ((tokens template).map fun t => Value.text t.text).mapM (pathText codec) =
      .ok ((tokens template).map Template.Token.text) := by
    rw [List.mapM_map]
    exact mapM_ok fun t _ => rfl
  have exact_ := takeD_length_self ((tokens template).map fun t => Value.text t.text) .null
  rw [List.length_map] at exact_
  rw [filled, exact_, own]
  exact congrArg Except.ok (Template.divides_literals template).whole

/-- Texts that look like tokens, alone or with a marker in front of them, are left as they are. -/
example : fromValues ⟨.bracket, {}, .logging⟩ "::a/:b*c".toList
    [.text "b".toList, .text ":a".toList, .list [.text "*".toList, .null], .int 1] [] =
      .ok ":b/:a*|".toList := by decide +kernel

end FragmentRouting.Fragment
