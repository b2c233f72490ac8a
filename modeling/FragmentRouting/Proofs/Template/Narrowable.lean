import FragmentRouting.Proofs.Pattern.Lookahead
import FragmentRouting.Proofs.Template.Reading

/-!
Sources of any host that are made for narrowing. Between its anchors such a source is made of the
shapes of tokens and of other tokens of the language of patterns, none of which passes over a
question mark, looks for an end of the text or gives up other ways to match; and where it offers a
choice, the choice is in parentheses. Narrowing then exchanges the shapes and leaves the rest, and
what is left is read as before.
-/
namespace FragmentRouting.Template

open Pattern (Alike Opens kinds tokenAt tokenAt_alike)
open Text (Avoids Scanned)

/-- What a source is made of: the shapes of tokens, and other characters that are one token in the
language of patterns. -/
inductive Element where
  | shape (kind : TokenKind)
  | other (first : Char) (more : Text) (token : Pattern.Token)

/-- A source with some shapes for its tokens, before a tail. -/
def written (shape : TokenKind → Text) : List Element → Text → Text
  | [], tail => tail
  | .shape kind :: rest, tail => shape kind ++ written shape rest tail
  | .other first more _ :: rest, tail => first :: (more ++ written shape rest tail)

def Element.kinds (run : TokenKind → Run) : Element → List Pattern.Token
  | .shape kind => (run kind).kinds
  | .other _ _ token => [token]

/-- How many groups are open behind a token that keeps away from queries, if as many are open
before it. -/
def depthAfter? (depth : Nat) : Pattern.Token → Option Nat
  | .one cls => if cls.contains '?' then none else some depth
  | .opening _ => some (depth + 1)
  | .closing => if depth = 0 then none else some (depth - 1)
  | .bar => if depth = 0 then none else some depth
  | .quantifier _ _ preference => if preference = .most then none else some depth
  | .start | .finish | .flawed _ => none

/-- Whether some elements stand for themselves before the last anchor, where a number of groups is
open: each is read as one token, no shape starts in it, and it keeps away from queries. -/
def Suited : Nat → List Element → Prop
  | depth, [] => depth = 0
  | depth, .shape _ :: rest => Suited depth rest
  | depth, .other first more token :: rest =>
    (∃ offset, tokenAt first (more ++ written hostShape rest ['$']) =
        (token, offset, more.length)) ∧
      (∀ kind, Avoids (hostShape kind) (first :: more) (written hostShape rest ['$'])) ∧
        ∃ depth', depthAfter? depth token = some depth' ∧ Suited depth' rest

instance (depth : Nat) : (elements : List Element) → Decidable (Suited depth elements)
  | [] => inferInstanceAs (Decidable (depth = 0))
  | .shape _ :: rest => instDecidableSuited depth rest
  | .other first more token :: rest =>
    have alone : Decidable (∃ offset, tokenAt first (more ++ written hostShape rest ['$']) =
        (token, offset, more.length)) :=
      decidable_of_iff ((tokenAt first (more ++ written hostShape rest ['$'])).1 = token ∧
          (tokenAt first (more ++ written hostShape rest ['$'])).2.2 = more.length)
        ⟨fun ⟨same, length⟩ => ⟨_, Prod.ext same (Prod.ext rfl length)⟩,
          fun ⟨_, read⟩ => ⟨congrArg Prod.fst read, congrArg (·.2.2) read⟩⟩
    have shapeless : Decidable (∀ kind, Avoids (hostShape kind) (first :: more)
        (written hostShape rest ['$'])) :=
      decidable_of_iff (∀ kind ∈ [TokenKind.named, .splat], Avoids (hostShape kind)
        (first :: more) (written hostShape rest ['$']))
        ⟨fun all kind => all kind (by cases kind <;> decide), fun all kind _ => all kind⟩
    have behind : Decidable (∃ depth', depthAfter? depth token = some depth' ∧
        Suited depth' rest) :=
      match depthAfter? depth token with
      | none => .isFalse nofun
      | some depth' =>
        have := instDecidableSuited depth' rest
        decidable_of_iff (Suited depth' rest)
          ⟨fun suited => ⟨depth', rfl, suited⟩, fun ⟨_, same, suited⟩ =>
            Option.some.inj same ▸ suited⟩
    inferInstanceAs (Decidable (_ ∧ _ ∧ _))

/-- Whether a source is made for narrowing. -/
def Narrowable (source : Text) : Prop :=
  ∃ elements, source = '^' :: written hostShape elements ['$'] ∧ Suited 0 elements

theorem sound_of_depthAfter? {depth depth' : Nat} {token : Pattern.Token}
    (keeps : depthAfter? depth token = some depth') : token.Sound := by
  rintro flaw rfl
  cases keeps

section Written

variable {shape shape' : TokenKind → Text} {elements : List Element}

theorem written_append (elements : List Element) (t tail : Text) :
    written shape elements (t ++ tail) = written shape elements t ++ tail := by
  induction elements with
  | nil => rfl
  | cons e rest ih =>
      cases e with
      | shape kind => rw [written, written, ih, List.append_assoc]
      | other first more token =>
          rw [written, written, ih, List.cons_append, List.append_assoc]

theorem opens_append {t : Text} (opening : t.head? = some '(') (u : Text) : Opens (t ++ u) := by
  left
  rw [List.head?_append, opening]
  rfl

theorem alike_written (opens : ∀ kind, (shape kind).head? = some '(')
    (opens' : ∀ kind, (shape' kind).head? = some '(') {tail tail' : Text} (ends : Opens tail)
    (ends' : Opens tail') (elements : List Element) :
    Alike (written shape elements tail) (written shape' elements tail') := by
  induction elements with
  | nil => exact ends.alike ends'
  | cons e rest ih =>
      cases e with
      | shape kind => exact (opens_append (opens kind) _).alike (opens_append (opens' kind) _)
      | other first more token => exact ih.append (first :: more)

theorem opens_dollar : Opens ['$'] := .inr rfl

end Written

theorem isPrefixOf_alike {t t' : Text} (alike : Alike t t') {more : Text} (opening : '(' ∉ more)
    (dollar : '$' ∉ more) : more.isPrefixOf t = more.isPrefixOf t' := by
  induction more generalizing t t' with
  | nil => rfl
  | cons a more ih =>
      rw [List.mem_cons, not_or] at opening dollar
      rcases alike.cases with ⟨opens, opens'⟩ | ⟨c, r, r', rfl, rfl, rest⟩
      · have outside {t : Text} (opens : Opens t) : (a :: more).isPrefixOf t = false := by
          cases t with
          | nil => rfl
          | cons c t =>
              have differs : a ≠ c := fun same =>
                opens.head?_ne (Ne.symm opening.1) (Ne.symm dollar.1) (congrArg some same.symm)
              rw [List.isPrefixOf_cons_cons, beq_eq_false_iff_ne.mpr differs, Bool.false_and]
        rw [outside opens, outside opens']
      · rw [List.isPrefixOf_cons_cons, List.isPrefixOf_cons_cons, ih rest opening.2 dollar.2]

theorem avoids_alike {more u t t' : Text} (opening : '(' ∉ more) (dollar : '$' ∉ more)
    (alike : Alike t t') (avoids : Avoids ('(' :: more) u t) : Avoids ('(' :: more) u t' := by
  induction u with
  | nil => trivial
  | cons c u ih =>
      refine ⟨?_, ih avoids.2⟩
      have same := isPrefixOf_alike (alike.append u) opening dollar
      have here := avoids.1
      rw [List.isPrefixOf_cons_cons] at here ⊢
      rw [← same]
      exact here

theorem Replaces.scanned_written {shape shape' : TokenKind → Text} {kind : TokenKind}
    {second : Char} {more : Text} (h : Replaces shape shape' kind second more)
    (host : shape kind = hostShape kind) (opening : '(' ∉ second :: more)
    (dollar : '$' ∉ second :: more) {depth : Nat} {elements : List Element}
    (suited : Suited depth elements) :
    ∃ found, Scanned (shape kind) (shape' kind) (written shape elements ['$'])
      (written shape' elements ['$']) found := by
  induction elements generalizing depth with
  | nil => exact ⟨0, Scanned.nil.skip (h.avoids_anchor (by decide) [])⟩
  | cons e rest ih =>
      cases e with
      | shape other =>
          obtain ⟨found, scanned⟩ := ih suited
          by_cases same : other = kind
          · rw [same]
            exact ⟨found + 1, scanned.occurrence h.nonempty⟩
          · obtain ⟨kept, avoids⟩ := h.others other same
            rw [written, written, kept]
            exact ⟨found, scanned.skip (avoids _)⟩
      | other first more' token =>
          obtain ⟨_, avoids, depth', _, suited⟩ := suited
          obtain ⟨found, scanned⟩ := ih suited
          have alike := alike_written (fun kind => (writes_host.opens kind)) h.opens opens_dollar
            opens_dollar rest
          have here := avoids kind
          rw [← host, h.form] at here
          refine ⟨found, scanned.skip (u := first :: more') ?_⟩
          rw [h.form]
          exact avoids_alike opening dollar alike here

/-- Narrowing exchanges the shapes and puts the group for the query before the last anchor. -/
theorem narrow_written {elements : List Element} (suited : Suited 0 elements) :
    narrow {} ('^' :: written hostShape elements ['$']) =
      '^' :: written queryShape elements (queryGroup ++ ['$']) := by
  have replaced {shape shape' : TokenKind → Text} {kind : TokenKind} {second : Char} {more : Text}
      (h : Replaces shape shape' kind second more) (host : shape kind = hostShape kind)
      (opening : '(' ∉ second :: more) (dollar : '$' ∉ second :: more) :
      Text.replaceAll (shape kind) (shape' kind) ('^' :: written shape elements ['$']) =
        '^' :: written shape' elements ['$'] := by
    obtain ⟨found, scanned⟩ := h.scanned_written host opening dollar suited
    rw [Text.replaceAll, if_neg (mt List.isEmpty_iff.mp h.nonempty)]
    exact (scanned.skip (h.avoids_anchor (by decide) _)).replaced
  have named := replaced replaces_named rfl (by decide) (by decide)
  have splat := replaced replaces_splat rfl (by decide) (by decide)
  have both : Text.replaceAll splatShape splatQueryShape (Text.replaceAll namedShape
      namedQueryShape ('^' :: written hostShape elements ['$'])) =
        '^' :: written queryShape elements ['$'] :=
    (congrArg (Text.replaceAll splatShape splatQueryShape) named).trans splat
  have last : ('^' :: written queryShape elements ['$']).dropLast =
      '^' :: written queryShape elements [] := by
    have split : written queryShape elements ['$'] = _ := written_append elements [] ['$']
    rw [split, ← List.cons_append, List.dropLast_concat]
  have tail : written queryShape elements (queryGroup ++ ['$']) = _ :=
    written_append elements [] (queryGroup ++ ['$'])
  rw [narrow]
  simp only [both, last, tail, List.append_assoc, List.cons_append]

theorem kinds_written {shape : TokenKind → Text} {run : TokenKind → Run}
    (writes : Writes shape run) {tail : Text} (ends : Opens tail) {depth : Nat}
    {elements : List Element} (suited : Suited depth elements) :
    kinds (written shape elements tail) = elements.flatMap (Element.kinds run) ++ kinds tail := by
  induction elements generalizing depth with
  | nil => rfl
  | cons e rest ih =>
      cases e with
      | shape kind =>
          rw [written, writes.kinds, ih suited, List.flatMap_cons, List.append_assoc]
          rfl
      | other first more token =>
          obtain ⟨⟨offset, read⟩, _, depth', keeps, suited⟩ := suited
          have alike := alike_written writes_host.opens writes.opens opens_dollar ends rest
          have same := tokenAt_alike alike (sound_of_depthAfter? keeps) read
          rw [written, Pattern.kinds_cons same, ih suited]
          rfl

theorem kinds_host {elements : List Element} (suited : Suited 0 elements) :
    kinds ('^' :: written hostShape elements ['$']) =
      .start :: (elements.flatMap (Element.kinds hostRun) ++ [.finish]) :=
  congrArg (Pattern.Token.start :: ·) (kinds_written writes_host opens_dollar suited)

theorem kinds_narrowed {elements : List Element} (suited : Suited 0 elements) :
    kinds (narrow {} ('^' :: written hostShape elements ['$'])) =
      .start :: (elements.flatMap (Element.kinds queryRun) ++ (queryKinds ++ [.finish])) := by
  have query : kinds (queryGroup ++ ['$']) = queryKinds ++ [.finish] := by decide
  have opens : Opens (queryGroup ++ ['$']) := .inl rfl
  rw [narrow_written suited, ← query]
  exact congrArg (Pattern.Token.start :: ·) (kinds_written writes_query opens suited)

end FragmentRouting.Template
