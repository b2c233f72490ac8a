import FragmentRouting.Proofs.Template.Acceptance
import FragmentRouting.Proofs.Template.Lockstep
import FragmentRouting.Proofs.Template.Verbatim

/-!
Compiling templates for any host. The check of the host's source looks at its first and last
characters and counts shapes. That is enough for a source that is made for narrowing: what the
host's matcher accepts, the compiled template accepts before any query, and the query is its last
capture. It is not enough for a source that offers a choice outside of parentheses.
-/
namespace FragmentRouting.Template

open Pattern (Ending Ends Outline Place Stops seqAll stops_seqAll tokenAt ways_length)
open Text (Avoids)

/-- Whether a matcher takes what the host's matcher takes before any query, and has the query as its
last capture. -/
def CarriesQueries (host matcher : Matcher) : Prop :=
  ∀ path query, '?' ∉ path → '\n' ∉ path → '\n' ∉ query → host.accepts path = true →
    ∃ captures, matcher.captures? (path ++ '?' :: query) = some captures ∧
      captures.getLast? = some (some ('?' :: query))

theorem getLast?_of_captures?_query {parts : List Pattern} (stops : Stops '?' (seqAll parts))
    {path query : Text} (unqueried : '?' ∉ path) (line : '\n' ∉ query)
    {captures : List (Option Text)}
    (matched : (narrowed parts).captures? (path ++ '?' :: query) = some captures) :
    captures.getLast? = some (some ('?' :: query)) := by
  rw [captures?_query stops unqueried line] at matched
  obtain ⟨s, found, rfl⟩ := Option.map_eq_some_iff.mp matched
  have length : s.captures.length = (seqAll parts).slots + 1 := by
    rw [ways_length _ _ s (List.mem_of_find?_eq_some found), Place.ofText, List.length_replicate,
      slots_narrowed]
  rw [List.getLast?_eq_getElem?, List.length_set, length, Nat.add_sub_cancel,
    List.getElem?_set_self]
  rw [length]
  exact Nat.lt_succ_self _

/-- Narrowing keeps what a host accepts, and makes room for a query. -/
theorem carriesQueries_narrow {source : Text} (narrowable : Narrowable source) {host : Matcher}
    (valid : Matcher.ofSource source = .ok host) :
    ∃ matcher, Matcher.ofSource (narrow {} source) = .ok matcher ∧ CarriesQueries host matcher := by
  obtain ⟨elements, rfl, suited⟩ := narrowable
  obtain ⟨_, read, rfl⟩ := ofSource_eq_ok_iff.mp valid
  obtain ⟨ps, qs, narrows, rfl, narrowedRead⟩ := parse_narrow suited read
  refine ⟨_, ofSource_eq_ok_iff.mpr ⟨_, narrowedRead, rfl⟩, ?_⟩
  intro path query unqueried pathLine line accepted
  have whole := Narrows.seqAll narrows
  obtain ⟨u, inside, rfl | feed⟩ := (isSome_captures?_anchored_iff whole.regular.1).mp accepted
  · have covered := whole.within path inside unqueried
    have matched := (captures?_of_language whole.regular.2 covered).2 query line
    obtain ⟨captures, matched⟩ := Option.isSome_iff_exists.mp matched
    have stops : Stops '?' (seqAll (.start :: qs)) :=
      stops_seqAll.mpr (List.forall_mem_cons.mpr ⟨trivial, stops_seqAll.mp whole.stops⟩)
    exact ⟨captures, matched, getLast?_of_captures?_query stops unqueried line matched⟩
  · rw [feed] at pathLine
    exact absurd (List.mem_append_right u (List.mem_singleton_self _)) pathLine

/-! ### The host that reads templates as described

What this host writes for a template without a question mark is made for narrowing: bars and anchors
are escaped, and only the shape of a splat passes over question marks.
-/

/-- The depth behind a token, where a token that keeps away from queries inside of a group can be
read. -/
theorem depthAfter?_of_step {token : Pattern.Token} (keeps : (depthAfter? 1 token).isSome = true)
    (single : token ≠ .bar) {o o' : Outline} (taken : o.step token = some o') :
    depthAfter? o.depth token = some o'.depth := by
  obtain ⟨ending, depth⟩ := o
  cases token with
  | one cls =>
      cases taken
      by_cases mark : cls.contains '?' = true
      · rw [depthAfter?, if_pos mark] at keeps
        cases keeps
      · exact if_neg mark
  | opening captures =>
      cases taken
      rfl
  | closing =>
      cases depth with
      | zero => cases taken
      | succ depth =>
          cases taken
          rfl
  | quantifier least bound preference =>
      have backtracks : preference ≠ .most := by
        rintro rfl
        cases keeps
      cases ending with
      | plain =>
          cases taken
          exact if_neg backtracks
      | nothing | anchor | repeated => cases taken
  | bar => exact absurd rfl single
  | start | finish | flawed flaw => cases keeps

theorem depthAfter?_literalKind {c : Char} (plain : c ≠ '?') :
    (depthAfter? 1 (literalKind c)).isSome = true ∧ literalKind c ≠ .bar := by
  rw [literalKind]
  split
  · decide
  split
  · decide
  split
  · decide
  · have other : (CharClass.single c).contains '?' ≠ true :=
      mt CharClass.single_contains_iff.mp (Ne.symm plain)
    rw [depthAfter?, if_neg other]
    refine ⟨rfl, ?_⟩
    intro same
    cases same

/-- Whether a text is made of elements that are suited where a number of groups is open, up to the
last anchor. -/
def Prepared (depth : Nat) (t : Text) : Prop :=
  ∃ elements, t = written hostShape elements ['$'] ∧ Suited depth elements

namespace Prepared

variable {depth depth' : Nat} {t : Text}

theorem shape (h : Prepared depth t) (kind : TokenKind) : Prepared depth (hostShape kind ++ t) := by
  obtain ⟨elements, rfl, suited⟩ := h
  exact ⟨.shape kind :: elements, rfl, suited⟩

theorem other (h : Prepared depth' t) {first : Char} (more : Text) {token : Pattern.Token}
    {offset : Nat} (read : tokenAt first (more ++ t) = (token, offset, more.length))
    (avoids : ∀ kind, Avoids (hostShape kind) (first :: more) t)
    (keeps : depthAfter? depth token = some depth') : Prepared depth (first :: (more ++ t)) := by
  obtain ⟨elements, rfl, suited⟩ := h
  exact ⟨.other first more token :: elements, rfl, ⟨offset, read⟩, avoids, depth', keeps, suited⟩

end Prepared

theorem prepared_sourceFrom {ps : List Piece} (plain : .literal '?' ∉ ps) {inside : Bool}
    {o : Outline} {ending : Ending}
    (taken : Outline.run (sourceKinds hostRun inside ps) o = some ⟨ending, 0⟩) :
    Prepared o.depth (sourceFrom hostShape inside ps ++ ['$']) := by
  -- The outline knows how many groups are open, and its steps carry that along the source.
  induction ps generalizing inside o with
  | nil =>
      cases taken
      exact ⟨[], rfl, rfl⟩
  | cons p rest ih =>
      rw [List.mem_cons, not_or] at plain
      have ends (inside : Bool) : Ends (sourceFrom hostShape inside rest ++ ['$']) :=
        ends_sourceFrom writes_host inside rest ⟨by decide, by decide⟩
      have anchored {c : Char} (other : c ≠ '(') (t : Text) :
          ∀ kind, Avoids (hostShape kind) [c] t :=
        avoids_of_replaces fun h => h.avoids_anchor other t
      cases p with
      | token t =>
          rw [sourceKinds, Outline.run_append] at taken
          rw [sourceFrom, List.append_assoc]
          exact (ih plain.2 taken).shape t.kind
      | literal c =>
          rw [sourceKinds] at taken
          rw [sourceFrom]
          split at taken
          next opens =>
              have others := ih plain.2 taken
              rw [if_pos opens]
              exact others.other ['?', ':'] rfl
                (avoids_of_replaces fun h => h.avoids_opening _) rfl
          next outer =>
              rw [if_neg outer]
              split at taken
              next closes =>
                  rw [if_pos closes]
                  obtain ⟨o', closed, taken⟩ := Option.bind_eq_some_iff.mp taken
                  obtain ⟨o'', asked, taken⟩ := Option.bind_eq_some_iff.mp taken
                  have mark := (ih plain.2 taken).other []
                    (Pattern.tokenAt_mark (ends false)) (anchored (by decide) _)
                    (depthAfter?_of_step (by decide) (by decide) asked)
                  exact mark.other [] rfl (anchored (by decide) _)
                    (depthAfter?_of_step (by decide) (by decide) closed)
              next literal =>
                  rw [if_neg literal, List.append_assoc]
                  obtain ⟨o', here, taken⟩ := Option.bind_eq_some_iff.mp taken
                  have avoids := avoids_of_replaces fun h =>
                    h.avoids_escapeChar c (h.head?_anchored inside rest)
                  obtain ⟨first, more, escaped, read⟩ := tokenAt_escapeChar c (ends inside)
                  have differs : c ≠ '?' := fun mark => plain.1 (congrArg Piece.literal mark.symm)
                  obtain ⟨keeps, single⟩ := depthAfter?_literalKind differs
                  rw [escaped] at avoids ⊢
                  exact (ih plain.2 taken).other more read avoids
                    (depthAfter?_of_step keeps single here)

/-- The sources of this host are made for narrowing, if they can be read and the template has no
question mark. -/
theorem narrowable_hostSource {template : Text} (plain : '?' ∉ template) {host : Matcher}
    (hosted : standardHost template = .ok host) : Narrowable (hostSource template) := by
  obtain ⟨p, read, _⟩ := ofSource_eq_ok_iff.mp hosted
  obtain ⟨ending, taken⟩ := (Pattern.exists_parse_iff _).mp ⟨p, read⟩
  rw [kinds_hostSource, Outline.run_cons, Option.bind_eq_some_iff] at taken
  obtain ⟨_, start, taken⟩ := taken
  cases start
  rw [Outline.run_append, Option.bind_eq_some_iff] at taken
  obtain ⟨⟨last, depth⟩, taken, finish⟩ := taken
  cases finish
  obtain ⟨elements, same, suited⟩ :=
    prepared_sourceFrom (fun mark => plain (mem_of_literal_mem_pieces mark)) taken
  exact ⟨elements, congrArg ('^' :: ·) same, suited⟩

/-- With the shapes that tokens have by default, compiling a template for any host fails at the
check of the host's source or carries queries, if a source that passes is made for narrowing. -/
theorem compile_carriesQueries {compiler : Compiler} (faithful : compiler.Faithful)
    (shapes : compiler.shapes = {}) {template source : Text} {host : Matcher}
    (hosted : compiler.host template = .ok host) (valid : Matcher.ofSource source = .ok host)
    (narrowable : hostFlaw? {} source (tokens template) = none → Narrowable source) :
    (∃ flaw, hostFlaw? {} source (tokens template) = some flaw ∧
        (compiler.compile template).1 = .error (.unfitHost flaw template source)) ∨
      ∃ object, (compiler.compile template).1 = .ok object ∧
        CarriesQueries host object.compiled.matcher := by
  have fresh := faithful.result template
  obtain ⟨p, _, same⟩ := ofSource_eq_ok_iff.mp valid
  have read : host.source = source := congrArg Matcher.source same
  rw [shapes, compileFresh, hosted] at fresh
  simp only [compileFrom, read] at fresh
  cases check : hostFlaw? {} source (tokens template) with
  | some flaw =>
      left
      rw [check] at fresh
      exact ⟨flaw, rfl, map_eq_error_iff.mp fresh⟩
  | none =>
      right
      obtain ⟨matcher, narrowedValid, carries⟩ := carriesQueries_narrow (narrowable check) valid
      rw [check, narrowedValid] at fresh
      obtain ⟨object, compiled, same⟩ := map_eq_ok_iff.mp fresh
      refine ⟨object, compiled, ?_⟩
      rw [same]
      exact carries

/-- The source `^(?:page|docs)/([^/]+)(?:\.html)?$` in its elements. -/
def pagesElements : List Element :=
  let literals (t : Text) : List Element := t.map fun c => .other c [] (.one (.single c))
  .other '(' ['?', ':'] (.opening false) :: literals "page".toList ++
    .other '|' [] .bar :: literals "docs".toList ++ .other ')' [] .closing ::
    literals ['/'] ++ .shape .named :: .other '(' ['?', ':'] (.opening false) ::
    .other '\\' ['.'] (.one (.single '.')) :: literals "html".toList ++
    [.other ')' [] .closing, .other '?' [] (.quantifier 0 (some 1) .more)]

def pagesSource : Text := "^(?:page|docs)/([^/]+)(?:\\.html)?$".toList

def pagesTemplate : Text := "page/:id".toList

/-- A host with a choice, a group for the token and an optional ending of its own. -/
theorem compile_carriesQueries_pages :
    ∃ host, fixedHost pagesSource pagesTemplate = .ok host ∧
      Matcher.ofSource pagesSource = .ok host ∧ Narrowable pagesSource ∧
        host.accepts "docs/start.html".toList = true ∧
          ((∃ flaw, hostFlaw? {} pagesSource (tokens pagesTemplate) = some flaw ∧
              (({ host := fixedHost pagesSource } : Compiler).compile pagesTemplate).1 =
                .error (.unfitHost flaw pagesTemplate pagesSource)) ∨
            ∃ object,
              (({ host := fixedHost pagesSource } : Compiler).compile pagesTemplate).1 =
                .ok object ∧ CarriesQueries host object.compiled.matcher) := by
  have read : (Matcher.ofSource pagesSource).map (·.accepts "docs/start.html".toList) =
      .ok true := by decide +kernel
  obtain ⟨host, valid, accepts⟩ := map_eq_ok_iff.mp read
  have narrowable : Narrowable pagesSource := ⟨pagesElements, by decide +kernel, by decide +kernel⟩
  have faithful : ({ host := fixedHost pagesSource } : Compiler).Faithful :=
    Compiler.faithful_of_empty rfl
  exact ⟨host, valid, valid, narrowable, accepts,
    compile_carriesQueries faithful rfl valid valid fun _ => narrowable⟩

/-- A choice outside of parentheses: the anchors belong to one branch each. -/
def splitSource : Text := "^a|b$".toList

/-- The check lets the source pass, and the query of a path that the host's matcher accepts is in no
capture. -/
theorem not_carriesQueries_split :
    hostFlaw? {} splitSource (tokens ['a']) = none ∧
      ∃ host object, Matcher.ofSource splitSource = .ok host ∧
        (({ host := fixedHost splitSource } : Compiler).compile ['a']).1 = .ok object ∧
        host.accepts ['a'] = true ∧
        object.compiled.matcher.captures? "a?x=1".toList = some [none] ∧
        ¬ CarriesQueries host object.compiled.matcher := by
  have passes : hostFlaw? {} splitSource (tokens ['a']) = none := by decide +kernel
  have read : (Matcher.ofSource splitSource).map (·.accepts ['a']) = .ok true := by decide +kernel
  have made : (({ host := fixedHost splitSource } : Compiler).compile ['a']).1.map
      (fun object => object.compiled.matcher.captures? "a?x=1".toList) = .ok (some [none]) := by
    decide +kernel
  obtain ⟨host, valid, accepts⟩ := map_eq_ok_iff.mp read
  obtain ⟨object, compiled, captured⟩ := map_eq_ok_iff.mp made
  refine ⟨passes, host, object, valid, compiled, accepts, captured, ?_⟩
  intro carries
  obtain ⟨captures, matched, last⟩ := carries ['a'] "x=1".toList (by decide) (by decide)
    (by decide) accepts
  rw [← Option.some.inj (captured.symm.trans matched)] at last
  cases last

end FragmentRouting.Template
