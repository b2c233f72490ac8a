import FragmentRouting.Proofs.Pattern.Outline
import FragmentRouting.Proofs.Template.Acceptance
import FragmentRouting.Proofs.Template.Rewriting

/-!
The compiler and the host agree on every template. The host's source is what four substitutions make
of the template, its shapes are the tokens that the compiler finds by a scan of its own, and
narrowing changes neither what stands before a quantifier nor the nesting of groups, so that the
narrowed source can be read exactly if the host's can.
-/
namespace FragmentRouting.Template

open Pattern (Outline kinds)

/-- The kinds of the shapes in a source, from left to right, after passing over `covered`
characters. -/
def shapeKindsFrom : Nat → Text → List TokenKind
  | _, [] => []
  | covered + 1, _ :: t => shapeKindsFrom covered t
  | 0, c :: t =>
    if namedShape.isPrefixOf (c :: t) then .named :: shapeKindsFrom (namedShape.length - 1) t
    else if splatShape.isPrefixOf (c :: t) then .splat :: shapeKindsFrom (splatShape.length - 1) t
    else shapeKindsFrom 0 t

def shapeKinds (source : Text) : List TokenKind := shapeKindsFrom 0 source

theorem shapeKinds_skip {u t : Text} (avoids : ∀ kind, Text.Avoids (hostShape kind) u t) :
    shapeKinds (u ++ t) = shapeKinds t := by
  induction u with
  | nil => rfl
  | cons c u ih =>
      have named : ¬ namedShape.isPrefixOf (c :: (u ++ t)) = true :=
        Bool.eq_false_iff.mp (avoids .named).1
      have splat : ¬ splatShape.isPrefixOf (c :: (u ++ t)) = true :=
        Bool.eq_false_iff.mp (avoids .splat).1
      rw [List.cons_append, shapeKinds, shapeKindsFrom, if_neg named, if_neg splat]
      exact ih fun kind => (avoids kind).2

theorem shapeKinds_shape (kind : TokenKind) (t : Text) :
    shapeKinds (hostShape kind ++ t) = kind :: shapeKinds t := by
  cases kind with
  | named => rfl
  | splat => rfl

theorem avoids_of_replaces {u t : Text}
    (h : ∀ {shape' kind second more}, Replaces hostShape shape' kind second more →
      Text.Avoids (hostShape kind) u t) : ∀ kind, Text.Avoids (hostShape kind) u t
  | .named => h replaces_named
  | .splat => h replaces_hostSplat

/-- The shapes in a source are those of the tokens. -/
theorem shapeKinds_sourceFrom (inside : Bool) (ps : List Piece) :
    shapeKinds (sourceFrom hostShape inside ps ++ ['$']) =
      (ps.filterMap Piece.token?).map Token.kind := by
  induction ps generalizing inside with
  | nil => rfl
  | cons p rest ih =>
      cases p with
      | token t =>
          rw [sourceFrom, List.append_assoc, shapeKinds_shape, ih]
          rfl
      | literal c =>
          rw [sourceFrom]
          split
          · exact (shapeKinds_skip (avoids_of_replaces fun h => h.avoids_opening _)).trans (ih true)
          split
          · exact (shapeKinds_skip (avoids_of_replaces fun h => h.avoids_closing _)).trans
              (ih false)
          · have skipped := avoids_of_replaces fun h =>
              h.avoids_escapeChar c (h.head?_anchored inside rest)
            rw [List.append_assoc, shapeKinds_skip skipped]
            exact ih inside

theorem shapeKinds_hostSource (template : Text) :
    shapeKinds (hostSource template) = (tokens template).map Token.kind := by
  have anchor := avoids_of_replaces fun h =>
    h.avoids_anchor (c := '^') (by decide) (sourceFrom hostShape false (pieces template) ++ ['$'])
  exact (shapeKinds_skip anchor).trans (shapeKinds_sourceFrom false (pieces template))

theorem outline_run_kinds (run run' : Run) : Outline.run run.kinds = Outline.run run'.kinds := rfl

theorem outline_run_sourceKinds (run run' : TokenKind → Run) (inside : Bool) (ps : List Piece) :
    Outline.run (sourceKinds run inside ps) = Outline.run (sourceKinds run' inside ps) := by
  induction ps generalizing inside with
  | nil => rfl
  | cons p rest ih =>
      cases p with
      | token t => exact Outline.run_append_congr (outline_run_kinds _ _) (ih inside)
      | literal c =>
          rw [sourceKinds, sourceKinds]
          split
          · exact Outline.run_cons_congr (ih true) _
          split
          · exact Outline.run_cons_congr (Outline.run_cons_congr (ih false) _) _
          · exact Outline.run_cons_congr (ih inside) _

theorem outline_run_query : Outline.run (queryKinds ++ [.finish]) = Outline.run [.finish] := rfl

/-- The narrowed source can be read if and only if the host's source can. -/
theorem exists_parse_narrowed_iff (template : Text) :
    (∃ p, Pattern.parse (narrowedSource template) = .ok p) ↔
      ∃ p, Pattern.parse (hostSource template) = .ok p := by
  have source := outline_run_sourceKinds queryRun hostRun false (pieces template)
  have whole := Outline.run_cons_congr (Outline.run_append_congr source outline_run_query) .start
  rw [Pattern.exists_parse_iff, Pattern.exists_parse_iff, kinds_hostSource, kinds_narrowedSource,
    whole]

theorem compileFresh_agrees (template : Text) :
    (compileFresh standardHost {} template).1.map (fun _ => ()) =
      (standardHost template).map (fun _ => ()) := by
  cases host : standardHost template with
  | error fault =>
      rw [compileFresh, host]
      rfl
  | ok matcher =>
      obtain ⟨q, read, _⟩ := ofSource_eq_ok_iff.mp host
      obtain ⟨p, narrowed⟩ := (exists_parse_narrowed_iff template).mpr ⟨q, read⟩
      rw [compileFresh_eq_ok_iff.mpr ⟨⟨q, read⟩, p, narrowed, rfl⟩]
      rfl

/-- For every template, the host's source is the result of the four substitutions, its shapes are
those of the declared tokens in their order, and the compiler fails with the host's fault or
succeeds as the host does. -/
theorem compiler_agrees_with_host (template : Text) :
    hostSource template = rewriting template ∧
      shapeKinds (hostSource template) = (tokens template).map Token.kind ∧
      (({} : Compiler).compile template).1.map (fun _ => ()) =
        (standardHost template).map (fun _ => ()) := by
  refine ⟨hostSource_eq_rewriting template, shapeKinds_hostSource template, ?_⟩
  rw [← compileFresh_agrees, ← compile_default]
  cases (({} : Compiler).compile template).1 with
  | error fault => rfl
  | ok object => rfl

end FragmentRouting.Template
