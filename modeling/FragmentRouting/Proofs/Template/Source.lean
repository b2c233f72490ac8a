import FragmentRouting.Proofs.Text.Search
import FragmentRouting.Template.Narrowing

/-!
The source of a narrowed pattern. Literal characters are escaped so that the host's shapes stand in
its sources only where it wrote them for tokens: the check of a host's source finds nothing wrong,
and narrowing replaces the shape of each token by its narrowed shape.
-/
namespace FragmentRouting.Template

open Text (Avoids Scanned)

variable {shape shape' : TokenKind → Text}

theorem isSpecial_of_ne_nil {c d : Char} (special : isSpecial c = true)
    (ordinary : isSpecial d = false) : c ≠ d := by
  intro same
  rw [same, ordinary] at special
  exact Bool.false_ne_true special

theorem head?_sourceFrom (opens : ∀ kind, (shape kind).head? = some '(') {d : Char}
    (special : isSpecial d = true) (escapes : d ≠ '\\') (inside : Bool) (ps : List Piece)
    {tail : Text} (end_ : tail.head? ≠ some d) :
    (sourceFrom shape inside ps ++ tail).head? ≠ some d := by
  have opening : d ≠ '(' := isSpecial_of_ne_nil special (by decide)
  have closing : d ≠ ')' := isSpecial_of_ne_nil special (by decide)
  have starts {c : Char} {t : Text} (differs : d ≠ c) (start : t.head? = some c) (u : Text) :
      (t ++ u).head? ≠ some d := by
    intro same
    rw [List.head?_append, start, Option.some_or, Option.some.injEq] at same
    exact differs same.symm
  cases ps with
  | nil => exact end_
  | cons p rest =>
      cases p with
      | token t =>
          rw [sourceFrom, List.append_assoc]
          exact starts opening (opens t.kind) _
      | literal c =>
          rw [sourceFrom]
          split
          · exact starts (t := ['(']) opening rfl _
          · split
            · exact starts (t := [')']) closing rfl _
            · rw [List.append_assoc, escapeChar]
              split
              · exact starts (c := '\\') escapes rfl _
              next ordinary =>
                  have differs : d ≠ c :=
                    isSpecial_of_ne_nil special (Bool.eq_false_iff.mpr ordinary)
                  exact starts differs rfl _

/-- What narrowing relies on when it looks for the shape of one kind of token: no character of a
template that is written in a source goes on like the shape. -/
structure Replaces (shape shape' : TokenKind → Text) (kind : TokenKind) (second : Char)
    (more : Text) : Prop where
  form : shape kind = '(' :: second :: more
  special : isSpecial second = true
  escapes : second ≠ '\\'
  ended : second ≠ '$'
  asked : second ≠ '?'
  opens : ∀ k, (shape k).head? = some '('
  others : ∀ k, k ≠ kind → shape' k = shape k ∧ ∀ t, Avoids (shape kind) (shape k) t

namespace Replaces

variable {kind : TokenKind} {second : Char} {more : Text}

theorem nonempty (h : Replaces shape shape' kind second more) : shape kind ≠ [] := by
  rw [h.form]
  exact List.cons_ne_nil _ _

theorem starts_elsewhere (h : Replaces shape shape' kind second more) {c : Char} (other : c ≠ '(')
    (t : Text) : (shape kind).isPrefixOf (c :: t) = false := by
  rw [h.form]
  exact Text.isPrefixOf_cons_cons_of_ne fun same => absurd same other

theorem goes_on (h : Replaces shape shape' kind second more) {t : Text}
    (next : t.head? ≠ some second) (c : Char) : (shape kind).isPrefixOf (c :: t) = false := by
  rw [h.form]
  exact Text.isPrefixOf_cons_cons_of_ne fun _ => next

theorem avoids_escapeChar (h : Replaces shape shape' kind second more) (c : Char) {t : Text}
    (next : t.head? ≠ some second) : Avoids (shape kind) (escapeChar c) t := by
  rw [escapeChar]
  split
  · exact ⟨h.starts_elsewhere (by decide) _, h.goes_on next c, trivial⟩
  · exact ⟨h.goes_on next c, trivial⟩

theorem avoids_anchor (h : Replaces shape shape' kind second more) {c : Char} (other : c ≠ '(')
    (t : Text) : Avoids (shape kind) [c] t :=
  ⟨h.starts_elsewhere other _, trivial⟩

theorem avoids_opening (h : Replaces shape shape' kind second more) (t : Text) :
    Avoids (shape kind) ['(', '?', ':'] t := by
  have asked (t : Text) : ('?' :: t).head? ≠ some second := fun same =>
    h.asked (Option.some.inj same).symm
  exact ⟨h.goes_on (asked _) '(', h.starts_elsewhere (by decide) _,
    h.starts_elsewhere (by decide) _, trivial⟩

theorem avoids_closing (h : Replaces shape shape' kind second more) (t : Text) :
    Avoids (shape kind) [')', '?'] t :=
  ⟨h.starts_elsewhere (by decide) _, h.starts_elsewhere (by decide) _, trivial⟩

theorem head?_anchored (h : Replaces shape shape' kind second more) (inside : Bool)
    (ps : List Piece) : (sourceFrom shape inside ps ++ ['$']).head? ≠ some second :=
  head?_sourceFrom h.opens h.special h.escapes inside ps fun same =>
    h.ended (Option.some.inj same).symm

theorem scanned (h : Replaces shape shape' kind second more) (inside : Bool) (ps : List Piece) :
    Scanned (shape kind) (shape' kind) (sourceFrom shape inside ps ++ ['$'])
      (sourceFrom shape' inside ps ++ ['$']) (countKind kind (ps.filterMap Piece.token?)) := by
  induction ps generalizing inside with
  | nil =>
      have anchor : Avoids (shape kind) ['$'] [] := h.avoids_anchor (by decide) []
      have last : Scanned (shape kind) (shape' kind) ['$'] ['$'] 0 := Scanned.nil.skip anchor
      exact last
  | cons p rest ih =>
      cases p with
      | token t =>
          rw [sourceFrom, sourceFrom, List.append_assoc, List.append_assoc]
          by_cases same : t.kind = kind
          · have counted : countKind kind ((.token t :: rest).filterMap Piece.token?) =
                countKind kind (rest.filterMap Piece.token?) + 1 :=
              List.countP_cons_of_pos (beq_iff_eq.mpr same)
            rw [counted, same]
            exact (ih inside).occurrence h.nonempty
          · have counted : countKind kind ((.token t :: rest).filterMap Piece.token?) =
                countKind kind (rest.filterMap Piece.token?) :=
              List.countP_cons_of_neg fun equal => same (beq_iff_eq.mp equal)
            obtain ⟨kept, avoids⟩ := h.others t.kind same
            rw [counted, kept]
            exact (ih inside).skip (avoids _)
      | literal c =>
          have counted : countKind kind ((.literal c :: rest).filterMap Piece.token?) =
              countKind kind (rest.filterMap Piece.token?) := rfl
          rw [counted, sourceFrom, sourceFrom]
          split
          · exact (ih true).skip (h.avoids_opening _)
          · split
            · exact (ih false).skip (h.avoids_closing _)
            · rw [List.append_assoc, List.append_assoc]
              exact (ih inside).skip (h.avoids_escapeChar c (h.head?_anchored inside rest))

theorem scanned_anchored (h : Replaces shape shape' kind second more) (ps : List Piece) :
    Scanned (shape kind) (shape' kind) ('^' :: (sourceFrom shape false ps ++ ['$']))
      ('^' :: (sourceFrom shape' false ps ++ ['$'])) (countKind kind (ps.filterMap Piece.token?)) :=
  (h.scanned false ps).skip (h.avoids_anchor (by decide) _)

theorem replaceAll_anchored (h : Replaces shape shape' kind second more) (ps : List Piece) :
    Text.replaceAll (shape kind) (shape' kind) ('^' :: (sourceFrom shape false ps ++ ['$'])) =
      '^' :: (sourceFrom shape' false ps ++ ['$']) := by
  have nonempty : ¬ (shape kind).isEmpty = true := mt List.isEmpty_iff.mp h.nonempty
  rw [Text.replaceAll, if_neg nonempty]
  exact (h.scanned_anchored ps).replaced

theorem occurrences_anchored (h : Replaces shape shape' kind second more) (ps : List Piece) :
    Text.occurrences (shape kind) ('^' :: (sourceFrom shape false ps ++ ['$'])) =
      countKind kind (ps.filterMap Piece.token?) := by
  have nonempty : ¬ (shape kind).isEmpty = true := mt List.isEmpty_iff.mp h.nonempty
  rw [Text.occurrences, if_neg nonempty]
  exact (h.scanned_anchored ps).counted

end Replaces

def halfShape : TokenKind → Text
  | .named => namedQueryShape
  | .splat => splatShape

theorem replaces_named : Replaces hostShape halfShape .named '[' ['^', '/', ']', '+', ')'] where
  form := rfl
  special := by decide
  escapes := by decide
  ended := by decide
  asked := by decide
  opens kind := by cases kind <;> rfl
  others kind other := by
    cases kind with
    | named => exact absurd rfl other
    | splat => exact ⟨rfl, fun t => ⟨rfl, rfl, rfl, rfl, rfl, trivial⟩⟩

theorem replaces_splat : Replaces halfShape queryShape .splat '.' ['*', '?', ')'] where
  form := rfl
  special := by decide
  escapes := by decide
  ended := by decide
  asked := by decide
  opens kind := by cases kind <;> rfl
  others kind other := by
    cases kind with
    | named => exact ⟨rfl, fun t => ⟨rfl, rfl, rfl, rfl, rfl, rfl, rfl, rfl, trivial⟩⟩
    | splat => exact absurd rfl other

theorem replaces_hostSplat :
    Replaces hostShape (fun | .named => namedShape | .splat => splatQueryShape) .splat '.'
      ['*', '?', ')'] where
  form := rfl
  special := by decide
  escapes := by decide
  ended := by decide
  asked := by decide
  opens kind := by cases kind <;> rfl
  others kind other := by
    cases kind with
    | named => exact ⟨rfl, fun t => ⟨rfl, rfl, rfl, rfl, rfl, rfl, rfl, trivial⟩⟩
    | splat => exact absurd rfl other

def narrowedSource (template : Text) : Text :=
  '^' :: (sourceFrom queryShape false (pieces template) ++ queryGroup ++ ['$'])

theorem narrow_hostSource (template : Text) :
    narrow {} (hostSource template) = narrowedSource template := by
  have named := replaces_named.replaceAll_anchored (pieces template)
  have splat := replaces_splat.replaceAll_anchored (pieces template)
  have both : Text.replaceAll splatShape splatQueryShape
      (Text.replaceAll namedShape namedQueryShape (hostSource template)) =
        '^' :: (sourceFrom queryShape false (pieces template) ++ ['$']) :=
    (congrArg (Text.replaceAll splatShape splatQueryShape) named).trans splat
  have last (t : Text) : ('^' :: (t ++ ['$'])).dropLast = '^' :: t := by
    rw [← List.cons_append, List.dropLast_concat]
  rw [narrow]
  simp only [both, last, narrowedSource]
  rfl

/-- The check of the host's sources never fails. -/
theorem hostFlaw?_hostSource (template : Text) :
    hostFlaw? {} (hostSource template) (tokens template) = none := by
  have count {shape' : TokenKind → Text} {kind second more}
      (h : Replaces hostShape shape' kind second more)
      (same : ({} : Shapes).of kind = hostShape kind) :
      shapeFlaw? {} (hostSource template) (tokens template) kind = none := by
    have found : Text.occurrences (({} : Shapes).of kind) (hostSource template) =
        countKind kind (tokens template) := by
      rw [same]
      exact h.occurrences_anchored (pieces template)
    exact if_pos found
  have last : (hostSource template).getLast? = some '$' :=
    List.getLast?_concat (l := '^' :: sourceFrom hostShape false (pieces template))
  have first : (hostSource template).head? = some '^' := rfl
  rw [hostFlaw?, if_neg (not_not.mpr first), if_neg (not_not.mpr last),
    count replaces_named rfl, count replaces_hostSplat rfl]
  rfl

end FragmentRouting.Template
