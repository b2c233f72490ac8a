import FragmentRouting.Proofs.Template.Agreement
import FragmentRouting.Proofs.Template.Captures

/-!
Templates without tokens and parentheses. All their characters are escaped where the language of
patterns gives them a meaning, but for the star: so such a template is taken literally exactly if it
has no star. A star makes it a pattern for other texts, or for none.
-/
namespace FragmentRouting.Template

open Pattern (Place Regular reads_language seqAll)

/-- Whether a template is taken literally: the host's matcher accepts it and, on one line, nothing
else; the compiled template accepts it alone and before a query, and, on one line, nothing else. -/
structure Literally (template : Text) (host : Matcher) (compiled : Compiled) : Prop where
  hosted : host.accepts template = true
  hostedOnly : ∀ path, '\n' ∉ path → host.accepts path = true → path = template
  alone : compiled.accepts template = true
  queried : ∀ query, '\n' ∉ query → compiled.accepts (template ++ '?' :: query) = true
  only : ∀ path, '\n' ∉ path → compiled.accepts path = true →
    path = template ∨ ∃ query, path = template ++ '?' :: query

theorem mem_language_literals {run : TokenKind → Run} {slot : Nat} {t u : Text} :
    u ∈ (seqAll (piecePatterns run slot (t.map .literal))).language ↔ u = t := by
  induction t generalizing slot u with
  | nil => exact Language.mem_one u
  | cons c t ih =>
      rw [List.map_cons, piecePatterns, Pattern.language_seqAll_cons, Language.mem_mul]
      constructor
      · rintro ⟨v, first, w, others, rfl⟩
        rw [mem_language_literal.mp first, ih.mp others]
        rfl
      · rintro rfl
        exact ⟨[c], mem_language_literal.mpr rfl, t, ih.mpr rfl, rfl⟩

/-- A pattern between two anchors matches the texts that it covers, and these with a line feed. -/
theorem isSome_captures?_anchored_iff {ps : List Pattern} (regular : Regular (seqAll ps))
    {path : Text} :
    ((seqAll (.start :: (ps ++ [.finish]))).captures? path).isSome = true ↔
      ∃ u ∈ (seqAll ps).language, path = u ∨ path = u ++ ['\n'] := by
  rw [isSome_captures?_anchored]
  constructor
  · rintro ⟨s, reached, ends⟩
    obtain ⟨u, inside, text⟩ := (reads_language regular).sound _ s reached
    have text : path = u ++ s.rest := text
    refine ⟨u, inside, ends.imp ?_ ?_⟩
    · intro nothing
      rw [text, nothing, List.append_nil]
    · intro feed
      rw [text, feed]
  · rintro ⟨u, inside, text⟩
    have complete {rest : Text} (text : path = u ++ rest) := (reads_language regular).complete
      (s := Place.ofText (seqAll ps).slots path) inside text
    rcases text with nothing | feed
    · obtain ⟨s, reached, rest⟩ := complete (nothing.trans (List.append_nil u).symm)
      exact ⟨s, reached, .inl rest⟩
    · obtain ⟨s, reached, rest⟩ := complete feed
      exact ⟨s, reached, .inr rest⟩

section Template

variable {template : Text} (untokened : tokens template = []) (opening : '(' ∉ template)
  (closing : ')' ∉ template)

include untokened opening closing

theorem literally_of_star_not_mem (star : '*' ∉ template) :
    ∃ host object, standardHost template = .ok host ∧
      (({} : Compiler).compile template).1 = .ok object ∧
      Literally template host object.compiled := by
  have literals := pieces_untokened untokened
  have plain (p : Piece) (member : p ∈ pieces template) : p.Plain := by
    rw [literals] at member
    obtain ⟨c, listed, rfl⟩ := List.mem_map.mp member
    exact ⟨ne_of_mem_of_not_mem listed opening, ne_of_mem_of_not_mem listed closing,
      ne_of_mem_of_not_mem listed star⟩
  obtain ⟨object, compiled, same⟩ :=
    map_eq_ok_iff.mp ((compile_default template).trans (compileFresh_pieces plain))
  refine ⟨_, object, standardHost_pieces plain, compiled, ?_⟩
  have regular (run : TokenKind → Run) (backtracks : ∀ kind, (run kind).preference ≠ .most) :
      Regular (seqAll (piecePatterns run 0 (pieces template))) :=
    regular_pieces backtracks (pieces template) 0
  have covers (run : TokenKind → Run) (u : Text) :
      u ∈ (seqAll (piecePatterns run 0 (pieces template))).language ↔ u = template := by
    rw [literals]
    exact mem_language_literals
  have hosted {path : Text} :=
    @isSome_captures?_anchored_iff _ (regular hostRun hostRun_preference) path
  have queried := regular queryRun queryRun_preference
  have matches_ := captures?_of_language queried ((covers queryRun template).mpr rfl)
  rw [same]
  refine ⟨?_, ?_, matches_.1, matches_.2, ?_⟩
  · exact hosted.mpr ⟨template, (covers hostRun template).mpr rfl, .inl rfl⟩
  · intro path line accepted
    obtain ⟨u, inside, rfl | rfl⟩ := hosted.mp accepted
    · exact (covers hostRun path).mp inside
    · exact absurd (List.mem_append_right u (List.mem_singleton_self _)) line
  · intro path line accepted
    obtain ⟨u, v, rfl, inside, rest⟩ := (captures?_iff_language queried line).mp accepted
    rw [(covers queryRun u).mp inside]
    refine rest.imp ?_ ?_
    · rintro rfl
      exact List.append_nil template
    · rintro ⟨query, rfl⟩
      exact ⟨query, rfl⟩

end Template

theorem Forest.patterns_untokened {forest : Forest}
    (untokened : ∀ t, .piece (.token t) ∉ forest.lexemes) (run run' : TokenKind → Run)
    (slot : Nat) : forest.patterns run slot = forest.patterns run' slot := by
  induction forest generalizing slot with
  | nil => rfl
  | piece p quantity rest ih =>
      simp only [Forest.lexemes, List.mem_cons, List.mem_append, not_or] at untokened
      cases p with
      | literal c =>
          rw [Forest.patterns, Forest.patterns, ih fun t => (untokened t).2.2]
          rfl
      | token t => exact absurd rfl (untokened t).1
  | group captures quantity body rest ihBody ihRest =>
      simp only [Forest.lexemes, List.mem_cons, List.mem_append, not_or] at untokened
      obtain ⟨inner, others⟩ := forall_and.mp fun t =>
        And.intro (untokened t).2.1 (untokened t).2.2.2.2
      rw [Forest.patterns, Forest.patterns, ihBody inner, ihRest others]

theorem star_piece_not_mem_lexemes {inside : Bool} {ps : List Piece} :
    .piece (.literal '*') ∉ lexemes inside ps := by
  intro member
  rcases stems_of_mem member with ⟨t, _, same⟩ | ⟨c, _, same⟩ | ⟨_, other⟩
  · cases same
  · have star := (literalLexeme_eq_piece same.symm).1
    rw [← Piece.literal.inj star] at same
    cases same
  · rcases other with other | other | other <;> cases other

/-- What has a star in it but no token is not matched by its own pattern. -/
theorem accepts_self_of_star {template : Text} (untokened : tokens template = [])
    (star : '*' ∈ template) {host : Matcher} (hosted : standardHost template = .ok host) :
    host.accepts template = false := by
  have succeeds := compileFresh_agrees template
  rw [hosted] at succeeds
  obtain ⟨compiled, fresh, _⟩ := map_eq_ok_iff.mp succeeds
  obtain ⟨forest, same, pattern, _⟩ := compileFresh_forest fresh
  have plain (t : Token) : .piece (.token t) ∉ forest.lexemes := by
    rw [← same]
    intro member
    have listed := (mem_of_piece_mem_lexemes member).1
    rw [pieces_untokened untokened] at listed
    obtain ⟨c, _, other⟩ := List.mem_map.mp listed
    cases other
  rw [Except.ok.inj (hosted.symm.trans pattern)]
  refine Bool.eq_false_iff.mpr fun accepted => ?_
  obtain ⟨u, inside, text⟩ := (isSome_captures?_anchored_iff
    (regular_patterns hostRun_preference forest 0)).mp accepted
  rw [forest.patterns_untokened plain hostRun queryRun, language_patterns] at inside
  have member : '*' ∈ u := by
    rcases text with rfl | text
    · exact star
    · rw [text] at star
      exact (List.mem_append.mp star).resolve_right (by decide)
  obtain ⟨p, listed, v, covers, member⟩ := Forest.exists_piece inside member
  cases p with
  | literal c =>
      have single : v = [c] := covers
      rw [single] at member
      rw [← List.mem_singleton.mp member, ← same] at listed
      exact star_piece_not_mem_lexemes listed
  | token t => exact plain t listed

/-- A template without tokens and parentheses is taken literally exactly if it has no star, and with
one not even its own text is accepted by the host. -/
theorem literally_iff_star_not_mem {template : Text} (untokened : tokens template = [])
    (opening : '(' ∉ template) (closing : ')' ∉ template) :
    ((∃ host object, standardHost template = .ok host ∧
        (({} : Compiler).compile template).1 = .ok object ∧
        Literally template host object.compiled) ↔ '*' ∉ template) ∧
      ∀ host, standardHost template = .ok host →
        (host.accepts template = true ↔ '*' ∉ template) := by
  have literally := literally_of_star_not_mem untokened opening closing
  have starred {host : Matcher} (hosted : standardHost template = .ok host)
      (accepted : host.accepts template = true) : '*' ∉ template := by
    intro star
    rw [accepts_self_of_star untokened star hosted] at accepted
    exact Bool.false_ne_true accepted
  refine ⟨⟨?_, literally⟩, fun host hosted => ⟨starred hosted, fun star => ?_⟩⟩
  · rintro ⟨host, object, hosted, _, law⟩
    exact starred hosted law.hosted
  · obtain ⟨host', _, hosted', _, law⟩ := literally star
    rw [Except.ok.inj (hosted.symm.trans hosted')]
    exact law.hosted

def specialTemplate : Text := "a.b+c[^d]\x7b1,2\x7d?|$\\w # -: \n".toList

theorem literally_special :
    tokens specialTemplate = [] ∧ '(' ∉ specialTemplate ∧ ')' ∉ specialTemplate ∧
      ∃ host object, standardHost specialTemplate = .ok host ∧
        (({} : Compiler).compile specialTemplate).1 = .ok object ∧
        Literally specialTemplate host object.compiled ∧
        host.accepts specialTemplate = true := by
  have untokened : tokens specialTemplate = [] := by decide +kernel
  have opening : '(' ∉ specialTemplate := by decide
  have closing : ')' ∉ specialTemplate := by decide
  have star : '*' ∉ specialTemplate := by decide
  obtain ⟨literally, accepts⟩ := literally_iff_star_not_mem untokened opening closing
  obtain ⟨host, object, hosted, compiled, law⟩ := literally.mpr star
  exact ⟨untokened, opening, closing, host, object, hosted, compiled, law,
    (accepts host hosted).mpr star⟩

def filesTemplate : Text := "files/*".toList

/-- The star repeats the slash: neither pattern matches the template, and both match it without its
last two characters. -/
theorem not_literally_files :
    tokens filesTemplate = [] ∧ '(' ∉ filesTemplate ∧ ')' ∉ filesTemplate ∧ '\n' ∉ filesTemplate ∧
      ∃ host object, standardHost filesTemplate = .ok host ∧
        (({} : Compiler).compile filesTemplate).1 = .ok object ∧
        host.accepts filesTemplate = false ∧ object.compiled.accepts filesTemplate = false ∧
        host.accepts "files".toList = true ∧ object.compiled.accepts "files".toList = true := by
  have untokened : tokens filesTemplate = [] := by decide +kernel
  have hosted : (standardHost filesTemplate).map
      (fun host => (host.accepts filesTemplate, host.accepts "files".toList)) =
        .ok (false, true) := by decide +kernel
  have compiled : (({} : Compiler).compile filesTemplate).1.map
      (fun object => (object.compiled.accepts filesTemplate,
        object.compiled.accepts "files".toList)) = .ok (false, true) := by decide +kernel
  obtain ⟨host, host_eq, answers⟩ := map_eq_ok_iff.mp hosted
  obtain ⟨object, object_eq, answers'⟩ := map_eq_ok_iff.mp compiled
  obtain ⟨rejects, accepts⟩ := Prod.mk.inj answers
  obtain ⟨rejects', accepts'⟩ := Prod.mk.inj answers'
  exact ⟨untokened, by decide, by decide, by decide, host, object, host_eq, object_eq,
    rejects, rejects', accepts, accepts'⟩

end FragmentRouting.Template
