import FragmentRouting.Proofs.Template.Slots

/-!
The words of a template, whatever its parentheses, stars and question marks, and what its compiled
matcher does with them: it accepts a word alone or before a query on one line, and the last capture
says which of the two it took a path for.
-/
namespace FragmentRouting.Template

open Computability
open Pattern (Place Regular SlotsIn captures?_eq_head? reads_language seqAll ways_seqAll_cons
  ways_start)

/-! ### Words -/

/-- The texts that a piece stands for. -/
def Piece.words : Piece → Language Char
  | .literal c => {u | u = [c]}
  | .token t => {u | t.kind.Admits u}

def Quantity.words : Quantity → Language Char → Language Char
  | .once, l => l
  | .optional, l => 1 + l
  | .any, l => l∗

/-- The texts that a forest spells. -/
def Forest.words : Forest → Language Char
  | nil => 1
  | piece p quantity rest => quantity.words p.words * rest.words
  | group _ quantity body rest => quantity.words body.words * rest.words

theorem language_applied (quantity : Quantity) (p : Pattern) :
    (quantity.applied p).language = quantity.words p.language := by
  cases quantity with
  | once => rfl
  | optional =>
      rw [Quantity.applied, Pattern.language, pow_zero, one_mul, Nat.sub_zero, pow_one]
      rfl
  | any =>
      rw [Quantity.applied, Pattern.language, pow_zero, one_mul]
      rfl

theorem language_piecePattern (slot : Nat) (p : Piece) :
    (piecePattern queryRun slot p).language = p.words := by
  ext u
  cases p with
  | literal c => exact mem_language_literal
  | token t => exact mem_language_token

/-- The narrowed pattern of a forest covers its words. -/
theorem language_patterns (forest : Forest) (slot : Nat) :
    (seqAll (forest.patterns queryRun slot)).language = forest.words := by
  induction forest generalizing slot with
  | nil => rfl
  | piece p quantity rest ih =>
      rw [Forest.patterns, Pattern.language_seqAll_cons, language_applied, language_piecePattern,
        ih, Forest.words]
  | group captures quantity body rest ihBody ihRest =>
      rw [Forest.patterns, Pattern.language_seqAll_cons, language_applied, language_groupPattern,
        ihBody, ihRest, Forest.words]

theorem Quantity.exists_of_mem {quantity : Quantity} {l : Language Char} {u : Text}
    (inside : u ∈ quantity.words l) {c : Char} (member : c ∈ u) : ∃ v ∈ l, c ∈ v := by
  cases quantity with
  | once => exact ⟨u, inside, member⟩
  | optional =>
      rcases (Language.mem_add _ _ _).mp inside with nothing | inside
      · rw [(Language.mem_one u).mp nothing] at member
        exact absurd member List.not_mem_nil
      · exact ⟨u, inside, member⟩
  | any =>
      obtain ⟨words, rfl, members⟩ := Language.mem_kstar.mp inside
      obtain ⟨v, listed, member⟩ := List.mem_flatten.mp member
      exact ⟨v, members v listed, member⟩

theorem Forest.exists_piece {forest : Forest} {u : Text} (inside : u ∈ forest.words) {c : Char}
    (member : c ∈ u) : ∃ p, .piece p ∈ forest.lexemes ∧ ∃ v ∈ p.words, c ∈ v := by
  induction forest generalizing u with
  | nil =>
      rw [(Language.mem_one u).mp inside] at member
      exact absurd member List.not_mem_nil
  | piece p quantity rest ih =>
      obtain ⟨v, here, w, others, rfl⟩ := Language.mem_mul.mp inside
      rcases List.mem_append.mp member with member | member
      · exact ⟨p, List.mem_cons_self, Quantity.exists_of_mem here member⟩
      · obtain ⟨q, listed, covers⟩ := ih others member
        exact ⟨q, List.mem_cons_of_mem _ (List.mem_append_right _ listed), covers⟩
  | group captures quantity body rest ihBody ihRest =>
      obtain ⟨v, here, w, others, rfl⟩ := Language.mem_mul.mp inside
      rcases List.mem_append.mp member with member | member
      · obtain ⟨v, inner, member⟩ := Quantity.exists_of_mem here member
        obtain ⟨q, listed, covers⟩ := ihBody inner member
        exact ⟨q, List.mem_cons_of_mem _ (List.mem_append_left _ listed), covers⟩
      · obtain ⟨q, listed, covers⟩ := ihRest others member
        refine ⟨q, List.mem_cons_of_mem _ (List.mem_append_right _ ?_), covers⟩
        exact List.mem_cons_of_mem _ (List.mem_append_right _ listed)

theorem Quantity.eq_once {quantity : Quantity} (mark : .mark ∉ quantity.lexemes)
    (star : .star ∉ quantity.lexemes) : quantity = .once := by
  cases quantity with
  | once => rfl
  | optional => exact absurd (List.mem_singleton_self _) mark
  | any => exact absurd (List.mem_singleton_self _) star

theorem count_mark_of_words {p : Piece} {u : Text} (inside : u ∈ p.words) :
    u.count '?' = [Lexeme.piece p].count (.piece (.literal '?')) := by
  cases p with
  | literal c =>
      have same : u = [c] := inside
      rw [same, List.count_singleton, List.count_singleton]
      simp only [beq_iff_eq, Lexeme.piece.injEq, Piece.literal.injEq]
  | token t =>
      have admits : t.kind.Admits u := inside
      rw [List.count_eq_zero_of_not_mem (mark_not_mem_of_admits admits), List.count_singleton]
      rfl

/-- If nothing is optional or repeated, each word has the question marks of the template. -/
theorem Forest.count_mark {forest : Forest} (mark : .mark ∉ forest.lexemes)
    (star : .star ∉ forest.lexemes) {u : Text} (inside : u ∈ forest.words) :
    u.count '?' = forest.lexemes.count (.piece (.literal '?')) := by
  induction forest generalizing u with
  | nil =>
      rw [(Language.mem_one u).mp inside]
      rfl
  | piece p quantity rest ih =>
      simp only [Forest.lexemes, List.mem_cons, List.mem_append, not_or] at mark star
      rw [Forest.words, Quantity.eq_once mark.2.1 star.2.1] at inside
      obtain ⟨v, here, w, others, rfl⟩ := Language.mem_mul.mp inside
      rw [List.count_append, count_mark_of_words here, ih mark.2.2 star.2.2 others,
        ← List.count_append, Forest.lexemes, Quantity.eq_once mark.2.1 star.2.1]
      rfl
  | group captures quantity body rest ihBody ihRest =>
      simp only [Forest.lexemes, List.mem_cons, List.mem_append, not_or] at mark star
      obtain ⟨_, markBody, _, markHere, markRest⟩ := mark
      obtain ⟨_, starBody, _, starHere, starRest⟩ := star
      rw [Forest.words, Quantity.eq_once markHere starHere] at inside
      obtain ⟨v, here, w, others, rfl⟩ := Language.mem_mul.mp inside
      rw [List.count_append, ihBody markBody starBody here, ihRest markRest starRest others,
        Forest.lexemes, Quantity.eq_once markHere starHere]
      simp [Quantity.lexemes, List.count_append]

/-! ### Lexemes of a template -/

section Lexemes

variable {inside : Bool} {ps : List Piece}

/-- Where a lexeme comes from: a token, a character by itself, or an optional part. -/
def Stems (inside : Bool) (ps : List Piece) (l : Lexeme) : Prop :=
  (∃ t, .token t ∈ ps ∧ l = .piece (.token t)) ∨
    (∃ c, .literal c ∈ ps ∧ l = literalLexeme c) ∨
      (.literal '(' ∈ ps ∨ inside = true) ∧ (l = .opening false ∨ l = .closing ∨ l = .mark)

theorem Stems.cons {inside' : Bool} {p : Piece} {l : Lexeme} (stems : Stems inside' ps l)
    (opened : inside' = true → .literal '(' ∈ p :: ps ∨ inside = true) :
    Stems inside (p :: ps) l := by
  rcases stems with ⟨t, listed, same⟩ | ⟨c, listed, same⟩ | ⟨part, same⟩
  · exact .inl ⟨t, List.mem_cons_of_mem p listed, same⟩
  · exact .inr (.inl ⟨c, List.mem_cons_of_mem p listed, same⟩)
  · exact .inr (.inr ⟨part.elim (fun listed => .inl (List.mem_cons_of_mem p listed)) opened, same⟩)

theorem stems_of_mem {l : Lexeme} (member : l ∈ lexemes inside ps) : Stems inside ps l := by
  induction ps generalizing inside with
  | nil => exact absurd member List.not_mem_nil
  | cons p rest ih =>
      cases p with
      | token t =>
          rcases List.mem_cons.mp member with same | member
          · exact .inl ⟨t, List.mem_cons_self, same⟩
          · exact (ih member).cons .inr
      | literal c =>
          rw [lexemes] at member
          split at member
          next opening =>
              have part : Piece.literal '(' ∈ .literal c :: rest := by
                rw [opening.1]
                exact List.mem_cons_self
              rcases List.mem_cons.mp member with same | member
              · exact .inr (.inr ⟨.inl part, .inl same⟩)
              · exact (ih member).cons fun _ => .inl part
          split at member
          next closing =>
              rcases List.mem_cons.mp member with same | member
              · exact .inr (.inr ⟨.inr closing.2, .inr (.inl same)⟩)
              rcases List.mem_cons.mp member with same | member
              · exact .inr (.inr ⟨.inr closing.2, .inr (.inr same)⟩)
              · exact (ih member).cons fun other => absurd other Bool.false_ne_true
          next =>
              rcases List.mem_cons.mp member with same | member
              · exact .inr (.inl ⟨c, List.mem_cons_self, same⟩)
              · exact (ih member).cons .inr

theorem literalLexeme_eq_piece {c : Char} {p : Piece} (same : literalLexeme c = .piece p) :
    p = .literal c ∧ c ≠ '(' := by
  unfold literalLexeme at same
  split at same
  · cases same
  next other =>
  split at same
  · cases same
  split at same
  · cases same
  · exact ⟨(Lexeme.piece.inj same).symm, other⟩

theorem mem_of_piece_mem_lexemes {p : Piece} (member : .piece p ∈ lexemes inside ps) :
    p ∈ ps ∧ p ≠ .literal '(' := by
  rcases stems_of_mem member with ⟨t, listed, same⟩ | ⟨c, listed, same⟩ | ⟨_, other⟩
  · rw [Lexeme.piece.inj same]
    exact ⟨listed, nofun⟩
  · obtain ⟨rfl, other⟩ := literalLexeme_eq_piece same.symm
    exact ⟨listed, fun same => other (Piece.literal.inj same)⟩
  · rcases other with other | other | other <;> cases other

theorem star_not_mem_lexemes (star : .literal '*' ∉ ps) : .star ∉ lexemes inside ps := by
  intro member
  rcases stems_of_mem member with ⟨t, _, same⟩ | ⟨c, listed, same⟩ | ⟨_, other⟩
  · cases same
  · unfold literalLexeme at same
    split at same
    · cases same
    split at same
    · cases same
    split at same
    next equal => exact star (equal ▸ listed)
    · cases same
  · rcases other with other | other | other <;> cases other

theorem mark_not_mem_lexemes (opening : .literal '(' ∉ ps) : .mark ∉ lexemes false ps := by
  intro member
  rcases stems_of_mem member with ⟨t, _, same⟩ | ⟨c, _, same⟩ | ⟨part, _⟩
  · cases same
  · unfold literalLexeme at same
    repeat' split at same
    all_goals cases same
  · exact part.elim opening Bool.false_ne_true

theorem literalLexeme_beq_mark (c : Char) :
    (literalLexeme c == .piece (.literal '?')) = (Piece.literal c == .literal '?') := by
  by_cases mark : c = '?'
  · rw [mark]
    rfl
  · have differs : literalLexeme c ≠ .piece (.literal '?') := fun same =>
      mark (Piece.literal.inj (literalLexeme_eq_piece same).1).symm
    rw [beq_eq_false_iff_ne.mpr differs]
    exact (beq_eq_false_iff_ne.mpr fun same => mark (Piece.literal.inj same)).symm

theorem count_lexemes (inside : Bool) (ps : List Piece) :
    (lexemes inside ps).count (.piece (.literal '?')) = ps.count (.literal '?') := by
  induction ps generalizing inside with
  | nil => rfl
  | cons p rest ih =>
      cases p with
      | token t =>
          rw [lexemes, List.count_cons, List.count_cons, ih]
          rfl
      | literal c =>
          rw [lexemes, List.count_cons]
          split
          next opening =>
              rw [List.count_cons, ih, opening.1]
              rfl
          split
          next closing =>
              rw [List.count_cons, List.count_cons, ih, closing.1]
              rfl
          next =>
              rw [List.count_cons, ih, literalLexeme_beq_mark]

end Lexemes

/-- A character of a word comes from the template itself or from a text for one of its tokens. -/
theorem literal_or_token_of_words {ps : List Piece} {forest : Forest}
    (same : lexemes false ps = forest.lexemes) {u : Text} (inside : u ∈ forest.words) {c : Char}
    (member : c ∈ u) :
    .literal c ∈ ps ∧ c ≠ '(' ∨ ∃ t v, .token t ∈ ps ∧ t.kind.Admits v ∧ c ∈ v := by
  obtain ⟨p, listed, v, covers, member⟩ := Forest.exists_piece inside member
  rw [← same] at listed
  obtain ⟨listed, other⟩ := mem_of_piece_mem_lexemes listed
  cases p with
  | literal d =>
      have single : v = [d] := covers
      rw [single] at member
      rw [List.mem_singleton.mp member]
      exact .inl ⟨listed, fun equal => other (congrArg Piece.literal equal)⟩
  | token t => exact .inr ⟨t, v, listed, covers, member⟩

theorem count_mark_of_lexemes {ps : List Piece} {forest : Forest}
    (same : lexemes false ps = forest.lexemes) (opening : .literal '(' ∉ ps)
    (star : .literal '*' ∉ ps) {u : Text} (inside : u ∈ forest.words) :
    u.count '?' = ps.count (.literal '?') := by
  have mark : .mark ∉ forest.lexemes := same ▸ mark_not_mem_lexemes opening
  have starred : .star ∉ forest.lexemes := same ▸ star_not_mem_lexemes star
  rw [Forest.count_mark mark starred inside, ← same, count_lexemes]

/-! ### Matches -/

theorem slotsIn_iff {among : Nat → Prop} {p : Pattern} :
    SlotsIn among p ↔ ∀ group ∈ p.groups, among group.2 := by
  induction p with
  | empty | one | start | finish => exact ⟨fun _ => List.forall_mem_nil _, fun _ => trivial⟩
  | seq p q ihp ihq => exact (and_congr ihp ihq).trans List.forall_mem_append.symm
  | choice p q ihp ihq => exact (and_congr ihp ihq).trans List.forall_mem_append.symm
  | group slot p ih => rw [SlotsIn, Pattern.groups, List.forall_mem_cons, ih]
  | repeated least bound preference p ih => exact ih

theorem slotsIn_patterns (forest : Forest) :
    SlotsIn (· < forest.slots) (seqAll (forest.patterns queryRun 0)) := by
  obtain ⟨bodies, _, groups⟩ := groups_patterns forest 0
  have size : bodies.length = forest.slots := by
    rw [← forest.slots_patterns queryRun 0, ← Pattern.length_groups, groups, List.length_zipIdx]
  rw [slotsIn_iff, groups]
  rintro ⟨body, slot⟩ member
  rw [← size]
  exact (List.getElem?_eq_some_iff.mp (List.mk_mem_zipIdx_iff_getElem?.mp member)).1

theorem mem_ways_queryEnd {slot : Nat} {s s' : Place} (member : s' ∈ (queryEnd slot).ways s) :
    (s'.rest = [] ∨ s'.rest = ['\n']) ∧
      (s' = s ∨ ∃ query, '\n' ∉ query ∧ s.rest = '?' :: (query ++ s'.rest) ∧
        s'.captures = s.captures.set slot (some ('?' :: query))) := by
  rw [queryEnd, ways_seqAll_cons, ways_queryPart, List.mem_flatMap] at member
  obtain ⟨s₁, first, last⟩ := member
  have last : s' ∈ if s₁.rest = [] ∨ s₁.rest = ['\n'] then [s₁] else [] := last
  split at last
  next ended =>
      rw [List.mem_singleton.mp last]
      refine ⟨ended, ?_⟩
      rcases List.mem_append.mp first with query | here
      · right
        obtain ⟨u, inside, text, captures⟩ :=
          Pattern.ways_group (p := queryBody) ⟨trivial, by decide, trivial⟩ ⟨trivial, trivial⟩
            slot s s₁ query
        obtain ⟨mark, starts, query, line, rfl⟩ := Language.mem_mul.mp inside
        obtain ⟨c, contains, rfl⟩ := mem_language_one.mp starts
        rw [CharClass.single_contains_iff.mp contains] at text captures
        refine ⟨query, ?_, text, captures⟩
        intro feed
        have outside := (mem_language_run.mp line).2 '\n' feed
        exact CharClass.other_contains_iff.mp outside rfl
      · exact .inl (List.mem_singleton.mp here)
  next => exact absurd last List.not_mem_nil

theorem ways_of_captures? {ps : List Pattern} {path : Text} {captures : List (Option Text)}
    (matched : (narrowed (.start :: ps)).captures? path = some captures) :
    ∃ s s', s ∈ (seqAll ps).ways (Place.ofText ((seqAll (.start :: ps)).slots + 1) path) ∧
      s' ∈ (queryEnd (seqAll (.start :: ps)).slots).ways s ∧ s'.captures = captures := by
  rw [captures?_eq_head?, ways_narrowed, Option.map_eq_some_iff] at matched
  obtain ⟨s', first, same⟩ := matched
  obtain ⟨s, reached, behind⟩ := List.mem_flatMap.mp (List.mem_of_head? first)
  rw [ways_start, slots_narrowed] at reached
  exact ⟨s, s', reached, behind, same⟩

/-- Whether a path is one of some words, alone or with a query behind it that is on one line. -/
def Splits (words : Language Char) (path : Text) : Option Text → Prop
  | none => path ∈ words
  | some query => '\n' ∉ query ∧ ∃ u ∈ words, path = u ++ '?' :: query

/-- Where words have no question marks, a query that has none either is split off in one way. -/
theorem splits_query_iff {words : Language Char} (plain : ∀ u ∈ words, '?' ∉ u) {path query : Text}
    (unmarked : '?' ∉ path) (single : '?' ∉ query) (line : '\n' ∉ query) {found : Option Text} :
    Splits words (path ++ '?' :: query) found ↔ path ∈ words ∧ found = some query := by
  cases found with
  | none =>
      refine iff_of_false (fun inside => ?_) (fun split => nomatch split.2)
      exact plain _ inside (List.mem_append_right _ List.mem_cons_self)
  | some other =>
      constructor
      · rintro ⟨_, u, inside, text⟩
        obtain ⟨rfl, _, rfl⟩ := (List.append_cons_inj_of_notMem unmarked single).mp text
        exact ⟨inside, rfl⟩
      · rintro ⟨inside, same⟩
        rw [Option.some.inj same]
        exact ⟨line, path, inside, rfl⟩

theorem eq_none_of_splits {words : Language Char} {path : Text}
    (count : ∀ u ∈ words, u.count '?' = path.count '?') {found : Option Text}
    (splits : Splits words path found) : found = none := by
  cases found with
  | none => rfl
  | some query =>
      obtain ⟨_, u, inside, text⟩ := splits
      have more : path.count '?' = u.count '?' + (query.count '?' + 1) := by
        rw [text, List.count_append, List.count_cons_self]
      rw [count u inside] at more
      omega

theorem last_untouched {ps : List Pattern} (own : SlotsIn (· < (seqAll ps).slots) (seqAll ps))
    {path : Text} {s : Place}
    (reached : s ∈ (seqAll ps).ways (Place.ofText ((seqAll (.start :: ps)).slots + 1) path)) :
    s.captures.length = (seqAll (.start :: ps)).slots + 1 ∧
      s.captures[(seqAll (.start :: ps)).slots]? = some none := by
  refine ⟨(Pattern.ways_length (seqAll ps) _ s reached).trans List.length_replicate, ?_⟩
  have other : SlotsIn (· ≠ (seqAll (.start :: ps)).slots) (seqAll ps) :=
    own.mono fun slot below => Pattern.slots_start ps ▸ Nat.ne_of_lt below
  refine (Pattern.ways_capture other _ s reached).trans ?_
  exact List.getElem?_replicate_of_lt (Nat.lt_succ_self _)

section Regular

variable {ps : List Pattern} {path : Text} (regular : Regular (seqAll ps))
  (own : SlotsIn (· < (seqAll ps).slots) (seqAll ps)) (ended : path.getLast? ≠ some '\n')

include regular own ended

theorem splits_of_captures? {captures : List (Option Text)}
    (matched : (narrowed (.start :: ps)).captures? path = some captures) :
    ∃ query, Splits (seqAll ps).language path query ∧
      captures.getLast? = some (query.map ('?' :: ·)) := by
  obtain ⟨s, s', reached, behind, rfl⟩ := ways_of_captures? matched
  obtain ⟨u, inside, text⟩ := (reads_language regular).sound _ s reached
  have text : path = u ++ s.rest := text
  obtain ⟨length, untouched⟩ := last_untouched own reached
  obtain ⟨ends, query⟩ := mem_ways_queryEnd behind
  have nothing : s'.rest = [] := by
    refine ends.resolve_right fun feed => ended ?_
    rcases query with rfl | ⟨query, _, rest, _⟩
    · rw [text, feed, List.getLast?_concat]
    · rw [text, rest, feed, ← List.cons_append, ← List.append_assoc, List.getLast?_concat]
  rcases query with rfl | ⟨query, line, rest, captures⟩
  · rw [nothing, List.append_nil] at text
    refine ⟨none, text ▸ inside, ?_⟩
    rw [List.getLast?_eq_getElem?, length]
    exact untouched
  · rw [nothing, List.append_nil] at rest
    refine ⟨some query, ⟨line, u, inside, rest ▸ text⟩, ?_⟩
    rw [captures, set_last _ _ length, List.getLast?_concat]
    rfl

theorem isSome_captures?_iff :
    ((narrowed (.start :: ps)).captures? path).isSome = true ↔
      ∃ query, Splits (seqAll ps).language path query := by
  constructor
  · intro matched
    obtain ⟨captures, matched⟩ := Option.isSome_iff_exists.mp matched
    obtain ⟨query, splits, _⟩ := splits_of_captures? regular own ended matched
    exact ⟨query, splits⟩
  · rintro ⟨none | query, splits⟩
    · exact (captures?_of_language regular splits).1
    · obtain ⟨line, u, inside, rfl⟩ := splits
      exact (captures?_of_language regular inside).2 query line

end Regular

/-- A template that compiles is a forest, and on paths that do not end in a line feed its matcher
knows the words of the forest and the words with a query. -/
theorem compiled_words {template : Text} {compiled : Compiled}
    (fresh : (compileFresh standardHost {} template).1 = .ok compiled) :
    ∃ forest : Forest, lexemes false (pieces template) = forest.lexemes ∧
      ∀ path : Text, path.getLast? ≠ some '\n' →
        ((compiled.matcher.captures? path).isSome = true ↔
          ∃ query, Splits forest.words path query) ∧
        ∀ captures, compiled.matcher.captures? path = some captures →
          ∃ query, Splits forest.words path query ∧
            captures.getLast? = some (query.map ('?' :: ·)) := by
  obtain ⟨forest, same, _, rfl⟩ := compileFresh_forest fresh
  refine ⟨forest, same, fun path ended => ?_⟩
  have regular := regular_patterns queryRun_preference forest 0
  have own := slotsIn_patterns forest
  rw [← forest.slots_patterns queryRun 0] at own
  rw [← language_patterns forest 0]
  exact ⟨isSome_captures?_iff regular own ended,
    fun captures matched => splits_of_captures? regular own ended matched⟩

end FragmentRouting.Template
