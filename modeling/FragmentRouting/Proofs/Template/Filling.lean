import FragmentRouting.Proofs.Template.Acceptance

namespace FragmentRouting.Template

open Pattern (Place Stops reads_language seqAll ways_start)

/-- The texts that stand for the tokens of some pieces, and the text that the pieces then give. -/
inductive Fills : List Piece → List Text → Text → Prop
  | nil : Fills [] [] []
  | literal {c : Char} {rest : List Piece} {values : List Text} {u : Text}
      (others : Fills rest values u) : Fills (.literal c :: rest) values (c :: u)
  | token {t : Token} {rest : List Piece} {v : Text} {values : List Text} {u : Text}
      (admits : t.kind.Admits v) (others : Fills rest values u) :
      Fills (.token t :: rest) (v :: values) (v ++ u)

namespace Fills

variable {ps qs : List Piece} {values values' : List Text} {u u' : Text}

theorem length (fills : Fills ps values u) : values.length = tokenCount ps := by
  induction fills with
  | nil => rfl
  | literal others ih => exact ih
  | token admits others ih => exact congrArg (· + 1) ih

theorem append (first : Fills ps values u) (second : Fills qs values' u') :
    Fills (ps ++ qs) (values ++ values') (u ++ u') := by
  induction first with
  | nil => exact second
  | literal others ih => exact .literal ih
  | token admits others ih =>
      rw [List.append_assoc]
      exact .token admits ih

theorem of_append (fills : Fills (ps ++ qs) values u) :
    ∃ front back v w, values = front ++ back ∧ u = v ++ w ∧ Fills ps front v ∧ Fills qs back w := by
  induction ps generalizing values u with
  | nil => exact ⟨[], values, [], u, rfl, rfl, .nil, fills⟩
  | cons p ps ih =>
      cases fills with
      | literal others =>
          obtain ⟨front, back, v, w, rfl, rfl, first, second⟩ := ih others
          exact ⟨front, back, _ :: v, w, rfl, rfl, .literal first, second⟩
      | token admits others =>
          obtain ⟨front, back, v, w, rfl, rfl, first, second⟩ := ih others
          exact ⟨_ :: front, back, _, w, rfl, (List.append_assoc _ _ _).symm,
            .token admits first, second⟩

theorem spells (fills : Fills ps values u) (opening : .literal '(' ∉ ps)
    (closing : .literal ')' ∉ ps) : Spells ps u := by
  induction fills with
  | nil => exact .nil
  | @literal c rest values u others ih =>
      rw [List.mem_cons, not_or] at opening closing
      have notOpening : c ≠ '(' := fun equal => opening.1 (congrArg Piece.literal equal.symm)
      have notClosing : c ≠ ')' := fun equal => closing.1 (congrArg Piece.literal equal.symm)
      exact .literal notOpening notClosing (ih opening.2 closing.2)
  | token admits others ih =>
      rw [List.mem_cons, not_or] at opening closing
      exact .token admits (ih opening.2 closing.2)

theorem mem_of_literal (fills : Fills ps values u) {c : Char} (literal : .literal c ∈ ps) :
    c ∈ u := by
  induction fills with
  | nil => exact absurd literal List.not_mem_nil
  | literal others ih =>
      rcases List.mem_cons.mp literal with same | literal
      · rw [Piece.literal.inj same]
        exact List.mem_cons_self
      · exact List.mem_cons_of_mem _ (ih literal)
  | token admits others ih =>
      rcases List.mem_cons.mp literal with same | literal
      · cases same
      · exact List.mem_append_right _ (ih literal)

theorem count_mark (fills : Fills ps values u) : u.count '?' = ps.count (.literal '?') := by
  induction fills with
  | nil => rfl
  | literal others ih =>
      rw [List.count_cons, List.count_cons, ih]
      simp only [beq_iff_eq, Piece.literal.injEq]
  | token admits others ih =>
      rw [List.count_append, List.count_eq_zero_of_not_mem (mark_not_mem_of_admits admits),
        Nat.zero_add, ih, List.count_cons]
      rfl

theorem mem_language (fills : Fills ps values u) (slot : Nat) :
    u ∈ (seqAll (piecePatterns queryRun slot ps)).language := by
  induction fills generalizing slot with
  | nil => exact Language.nil_mem_one
  | literal others ih =>
      rw [piecePatterns, Pattern.language_seqAll_cons]
      exact Language.append_mem_mul (mem_language_literal.mpr rfl) (ih _)
  | token admits others ih =>
      rw [piecePatterns, Pattern.language_seqAll_cons]
      exact Language.append_mem_mul (mem_language_token.mpr admits) (ih _)

end Fills

theorem fills_literal_iff {t u : Text} {values : List Text} :
    Fills (t.map .literal) values u ↔ values = [] ∧ u = t := by
  constructor
  · intro fills
    induction t generalizing u with
    | nil =>
        cases fills
        exact ⟨rfl, rfl⟩
    | cons c t ih =>
        cases fills with
        | literal others =>
            obtain ⟨rfl, rfl⟩ := ih others
            exact ⟨rfl, rfl⟩
  · rintro ⟨rfl, rfl⟩
    induction u with
    | nil => exact .nil
    | cons c u ih => exact .literal ih

theorem fills_token_iff {token : Token} {u : Text} {values : List Text} :
    Fills [.token token] values u ↔ values = [u] ∧ token.kind.Admits u := by
  constructor
  · intro fills
    cases fills with
    | token admits others =>
        cases others
        rw [List.append_nil]
        exact ⟨rfl, admits⟩
  · rintro ⟨rfl, admits⟩
    have fills : Fills [.token token] [u] (u ++ []) := .token admits .nil
    rw [List.append_nil] at fills
    exact fills

def putAll : Nat → List Text → List (Option Text) → List (Option Text)
  | _, [], captures => captures
  | slot, v :: values, captures => putAll (slot + 1) values (captures.set slot (some v))

theorem putAll_append (front : List (Option Text)) (values : List Text)
    (back : List (Option Text)) :
    putAll front.length values (front ++ (List.replicate values.length none ++ back)) =
      front ++ (values.map some ++ back) := by
  induction values generalizing front with
  | nil => rfl
  | cons v values ih =>
      have here : (front ++ (List.replicate (v :: values).length none ++ back)).set front.length
          (some v) = (front ++ [some v]) ++ (List.replicate values.length none ++ back) := by
        rw [List.set_append_right _ _ (Nat.le_refl _), Nat.sub_self, List.length_cons,
          List.replicate_succ, List.append_assoc]
        rfl
      have next : front.length + 1 = (front ++ [some v]).length := by
        rw [List.length_append]
        rfl
      rw [putAll, here, next, ih, List.append_assoc]
      rfl

theorem putAll_putAll (slot : Nat) (values values' : List Text) (captures : List (Option Text)) :
    putAll (slot + values.length) values' (putAll slot values captures) =
      putAll slot (values ++ values') captures := by
  induction values generalizing slot captures with
  | nil => rfl
  | cons v values ih =>
      rw [List.length_cons, Nat.add_comm values.length, ← Nat.add_assoc]
      exact ih (slot + 1) _

theorem fills_of_ways_piece {p : Piece} {slot : Nat} {s s' : Place}
    (member : s' ∈ (piecePattern queryRun slot p).ways s) :
    ∃ values u, Fills [p] values u ∧ s.rest = u ++ s'.rest ∧
      s'.captures = putAll slot values s.captures := by
  cases p with
  | literal c =>
      have regular := regular_piecePattern queryRun_preference slot (.literal c)
      obtain ⟨u, inside, text⟩ := (reads_language regular).sound s s' member
      have captures := Pattern.ways_captures (p := .one (.single c)) trivial s s' member
      refine ⟨[], u, ?_, text, captures⟩
      rw [mem_language_literal.mp inside]
      exact .literal .nil
  | token t =>
      let run := queryRun t.kind
      obtain ⟨u, inside, text, captures⟩ := Pattern.ways_group
        (p := .repeated run.least none run.preference (.one run.cls))
        ⟨queryRun_preference t.kind, trivial⟩ trivial slot s s' member
      have admits : u ∈ (piecePattern queryRun slot (.token t)).language := inside
      exact ⟨[u], u, fills_token_iff.mpr ⟨rfl, mem_language_token.mp admits⟩, text, captures⟩

/-- Each way through the pieces fills them with what it captures. -/
theorem fills_of_ways {ps : List Piece} {slot : Nat} {s s' : Place}
    (member : s' ∈ (seqAll (piecePatterns queryRun slot ps)).ways s) :
    ∃ values u, Fills ps values u ∧ s.rest = u ++ s'.rest ∧
      s'.captures = putAll slot values s.captures := by
  induction ps generalizing slot s with
  | nil =>
      rw [List.mem_singleton.mp member]
      exact ⟨[], [], .nil, rfl, rfl⟩
  | cons p ps ih =>
      rw [piecePatterns, Pattern.ways_seqAll_cons, List.mem_flatMap] at member
      obtain ⟨s₁, first, member⟩ := member
      obtain ⟨here, v, filled, text, captures⟩ := fills_of_ways_piece first
      obtain ⟨others, w, filled', text', captures'⟩ := ih member
      refine ⟨here ++ others, v ++ w, filled.append filled', ?_, ?_⟩
      · rw [text, text', List.append_assoc]
      · rw [captures', captures, ← filled.length, putAll_putAll]

/-- A template of plain pieces compiles, to the patterns of its pieces. -/
theorem compileFresh_pieces {template : Text} (plain : ∀ p ∈ pieces template, p.Plain) :
    (compileFresh standardHost {} template).1 =
      .ok ⟨template, ⟨narrowedSource template,
        narrowed (.start :: piecePatterns queryRun 0 (pieces template))⟩, tokens template⟩ := by
  have split : pieces template = ((pieces template).map Section.single).flatMap Section.pieces := by
    rw [List.flatMap_map]
    exact (List.flatMap_singleton' _).symm
  have patterns (ps : List Piece) (slot : Nat) :
      sectionPatterns queryRun slot (ps.map .single) = piecePatterns queryRun slot ps := by
    induction ps generalizing slot with
    | nil => rfl
    | cons p ps ih => exact congrArg _ (ih _)
  rw [compileFresh_sections split, narrowedParts, patterns]
  intro s member
  obtain ⟨p, listed, rfl⟩ := List.mem_map.mp member
  exact plain p listed

theorem plain_of_not_mem {template : Text} (opening : '(' ∉ template) (closing : ')' ∉ template)
    (stars : starsNamed template = true) : ∀ p ∈ pieces template, p.Plain := by
  intro p member
  cases p with
  | token t => trivial
  | literal c =>
      have listed := mem_of_literal_mem_pieces member
      refine ⟨ne_of_mem_of_not_mem listed opening, ne_of_mem_of_not_mem listed closing, ?_⟩
      rintro rfl
      exact star_not_mem_pieces stars member

theorem slots_pieces (ps : List Piece) :
    (seqAll (.start :: piecePatterns queryRun 0 ps)).slots = tokenCount ps := by
  rw [Pattern.slots_start, slots_piecePatterns]

theorem stops_pieces {ps : List Piece} (plain : .literal '?' ∉ ps) (slot : Nat) :
    Stops '?' (seqAll (.start :: piecePatterns queryRun slot ps)) := by
  rw [Pattern.stops_seqAll, List.forall_mem_cons]
  refine ⟨trivial, ?_⟩
  induction ps generalizing slot with
  | nil => exact List.forall_mem_nil _
  | cons p ps ih =>
      rw [List.mem_cons, not_or] at plain
      refine List.forall_mem_cons.mpr ⟨?_, ih plain.2 _⟩
      cases p with
      | token t => exact ⟨queryRun_preference t.kind, queryRun_mark t.kind⟩
      | literal c =>
          have differs : '?' ≠ c := fun same => plain.1 (congrArg Piece.literal same)
          exact Bool.eq_false_iff.mpr fun inside =>
            differs (CharClass.single_contains_iff.mp inside)

section Unique

variable {ps : List Piece} {values : List Text} {u : Text} (fills : Fills ps values u)
  (unique : ∀ others, Fills ps others u → others = values)

include fills unique

theorem lastPlace?_of_fills :
    ∃ s, lastPlace? (.start :: piecePatterns queryRun 0 ps) u (·.rest == []) = some s ∧
      s.captures = values.map some ++ [none] := by
  unfold lastPlace?
  rw [ways_start, slots_narrowed, slots_pieces, ← fills.length]
  have regular := regular_pieces queryRun_preference ps 0
  obtain ⟨reached, member, rest⟩ := (reads_language regular).complete
    (s := Place.ofText (values.length + 1) u) (fills.mem_language 0) (List.append_nil u).symm
  cases found : ((seqAll (piecePatterns queryRun 0 ps)).ways
      (Place.ofText (values.length + 1) u)).find? (·.rest == []) with
  | none =>
      have other := List.find?_eq_none.mp found reached member
      rw [rest] at other
      exact absurd rfl other
  | some s =>
      have ends : s.rest = [] :=
        beq_iff_eq.mp (List.find?_some (p := fun s : Place => s.rest == []) found)
      obtain ⟨others, v, filled, text, captures⟩ :=
        fills_of_ways (List.mem_of_find?_eq_some found)
      refine ⟨s, rfl, ?_⟩
      rw [ends, List.append_nil] at text
      have text : u = v := text
      rw [← text] at filled
      rw [captures, unique others filled, Place.ofText, List.replicate_succ']
      exact putAll_append [] values [none]

/-- A path that is filled in one way only has this filling for its captures. -/
theorem captures?_of_fills (unmarked : '?' ∉ u) (ended : u.getLast? ≠ some '\n') :
    (narrowed (.start :: piecePatterns queryRun 0 ps)).captures? u =
      some (values.map some ++ [none]) := by
  obtain ⟨s, last, captures⟩ := lastPlace?_of_fills fills unique
  rw [captures?_plain unmarked, lastPlace?_atEnd ended, last, Option.map_some, captures]

theorem captures?_query_of_fills (plain : .literal '?' ∉ ps) (unmarked : '?' ∉ u) {query : Text}
    (line : '\n' ∉ query) :
    (narrowed (.start :: piecePatterns queryRun 0 ps)).captures? (u ++ '?' :: query) =
      some (values.map some ++ [some ('?' :: query)]) := by
  obtain ⟨s, last, captures⟩ := lastPlace?_of_fills fills unique
  have size : s.captures.length = tokenCount ps + 1 := by
    rw [captures, List.length_append, List.length_map, fills.length]
    rfl
  rw [captures?_query (stops_pieces plain 0) unmarked line, last, Option.map_some, slots_pieces,
    set_last _ _ size, captures, List.dropLast_concat]

end Unique

end FragmentRouting.Template
