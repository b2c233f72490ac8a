import FragmentRouting.Proofs.Template.Compiled

/-!
Templates whose parentheses are balanced and not nested, as sequences of sections: pieces that stand
alone, and optional parts. Their sources can be read, and the patterns are given section by section;
slots are numbered in the order of the tokens.
-/
namespace FragmentRouting.Template

open Pattern (Adds Part seqAll)

/-- Whether parentheses are balanced and not nested, with no line feed between them. -/
def unnested : Bool → Text → Bool
  | inside, [] => !inside
  | inside, c :: rest =>
    if c = '(' then !inside && unnested true rest
    else if c = ')' then inside && unnested false rest
    else !(inside && c == '\n') && unnested inside rest

/-- A piece that stands alone or an optional part of a template. -/
inductive Section where
  | single (p : Piece)
  | optional (body : List Piece)

def Section.pieces : Section → List Piece
  | .single p => [p]
  | .optional body => .literal '(' :: (body ++ [.literal ')'])

/-- Whether a piece is neither a parenthesis nor a star. -/
def Piece.Plain : Piece → Prop
  | .literal c => c ≠ '(' ∧ c ≠ ')' ∧ c ≠ '*'
  | .token _ => True

/-- Whether the pieces of a section are plain, and those of an optional part on one line. -/
def Section.Plain : Section → Prop
  | .single p => p.Plain
  | .optional body => ∀ p ∈ body, p.Plain ∧ p ≠ .literal '\n'

theorem unnested_append {u : Text} (outside : ∀ c ∈ u, c ≠ '(' ∧ c ≠ ')' ∧ c ≠ '\n')
    (inside : Bool) (t : Text) : unnested inside (u ++ t) = unnested inside t := by
  induction u with
  | nil => rfl
  | cons c u ih =>
      obtain ⟨⟨opening, closing, feed⟩, others⟩ := List.forall_mem_cons.mp outside
      rw [List.cons_append, unnested, if_neg opening, if_neg closing, beq_eq_false_iff_ne.mpr feed,
        Bool.and_false, ih others]
      rfl

theorem unnested_of_not_mem {t : Text} (opening : '(' ∉ t) (closing : ')' ∉ t) :
    unnested false t = true := by
  induction t with
  | nil => rfl
  | cons c t ih =>
      rw [List.mem_cons, not_or] at opening closing
      rw [unnested, if_neg (Ne.symm opening.1), if_neg (Ne.symm closing.1),
        ih opening.2 closing.2]
      rfl

theorem unnested_token {token : Token} (named : token.Named) (inside : Bool) (t : Text) :
    unnested inside (token.text ++ t) = unnested inside t := by
  apply unnested_append
  intro c member
  rcases List.mem_cons.mp member with rfl | member
  · cases token.kind with
    | named => decide
    | splat => decide
  · have word := named.words c member
    have differs {d : Char} (other : Text.isWord d = false) : c ≠ d := by
      intro same
      rw [same, other] at word
      exact Bool.false_ne_true word
    exact ⟨differs (by decide), differs (by decide), differs (by decide)⟩

/-- Whether pieces are those of plain sections. -/
def Sectioned (ps : List Piece) : Prop :=
  ∃ sections : List Section, ps = sections.flatMap Section.pieces ∧ ∀ s ∈ sections, s.Plain

/-- Whether pieces are the rest of an optional part and plain sections behind it. -/
def Closing (ps : List Piece) : Prop :=
  ∃ body rest, ps = body ++ .literal ')' :: rest ∧
    (∀ p ∈ body, p.Plain ∧ p ≠ .literal '\n') ∧ Sectioned rest

theorem Sectioned.nil : Sectioned [] := ⟨[], rfl, List.forall_mem_nil _⟩

theorem Sectioned.single {p : Piece} {ps : List Piece} (plain : p.Plain) (h : Sectioned ps) :
    Sectioned (p :: ps) := by
  obtain ⟨sections, split, others⟩ := h
  exact ⟨.single p :: sections, congrArg (p :: ·) split, List.forall_mem_cons.mpr ⟨plain, others⟩⟩

theorem Sectioned.close {ps : List Piece} (h : Sectioned ps) : Closing (.literal ')' :: ps) :=
  ⟨[], ps, rfl, List.forall_mem_nil _, h⟩

theorem Closing.cons {p : Piece} {ps : List Piece} (plain : p.Plain) (line : p ≠ .literal '\n')
    (h : Closing ps) : Closing (p :: ps) := by
  obtain ⟨body, rest, split, inside, others⟩ := h
  exact ⟨p :: body, rest, congrArg (p :: ·) split,
    List.forall_mem_cons.mpr ⟨⟨plain, line⟩, inside⟩, others⟩

theorem Closing.opened {ps : List Piece} (h : Closing ps) : Sectioned (.literal '(' :: ps) := by
  obtain ⟨body, rest, split, inside, sections, parts, others⟩ := h
  refine ⟨.optional body :: sections, ?_, List.forall_mem_cons.mpr ⟨inside, others⟩⟩
  rw [split, parts, List.flatMap_cons, Section.pieces, List.cons_append, List.append_assoc]
  rfl

/-- The rest of a template, outside of an optional part and inside of one. -/
theorem sectioned_pieces (t : Text) (stars : .literal '*' ∉ pieces t) :
    (unnested false t = true → Sectioned (pieces t)) ∧
      (unnested true t = true → Closing (pieces t)) := by
  -- A literal may open or close a section, so both states are carried along the pieces.
  revert stars
  apply pieces_induction (motive := fun t ps => .literal '*' ∉ ps →
    (unnested false t = true → Sectioned ps) ∧ (unnested true t = true → Closing ps))
  case nil =>
      intro _
      refine ⟨fun _ => .nil, ?_⟩
      intro balanced
      cases balanced
  case literal =>
      intro c rest _ ih stars
      rw [List.mem_cons, not_or] at stars
      obtain ⟨outer, inner⟩ := ih stars.2
      by_cases opening : c = '('
      · rw [opening]
        refine ⟨fun balanced => (inner balanced).opened, ?_⟩
        intro balanced
        cases balanced
      · by_cases closing : c = ')'
        · rw [closing]
          refine ⟨?_, fun balanced => (outer balanced).close⟩
          intro balanced
          cases balanced
        · have star : c ≠ '*' := fun same => stars.1 (congrArg Piece.literal same.symm)
          have plain : (Piece.literal c).Plain := ⟨opening, closing, star⟩
          rw [unnested, unnested, if_neg opening, if_neg opening, if_neg closing, if_neg closing]
          refine ⟨fun balanced => (outer balanced).single plain, ?_⟩
          intro balanced
          rw [Bool.and_eq_true, Bool.true_and, Bool.not_eq_true', beq_eq_false_iff_ne] at balanced
          have line : Piece.literal c ≠ .literal '\n' := fun same =>
            balanced.1 (Piece.literal.inj same)
          exact (inner balanced.2).cons plain line
  case token =>
      intro token rest named _ ih stars
      obtain ⟨outer, inner⟩ := ih fun member => stars (List.mem_cons_of_mem _ member)
      rw [unnested_token named, unnested_token named]
      have line : Piece.token token ≠ .literal '\n' := by
        intro same
        cases same
      exact ⟨fun balanced => (outer balanced).single trivial,
        fun balanced => (inner balanced).cons trivial line⟩

section Kinds

variable (run : TokenKind → Run)

def pieceKinds : Piece → List Pattern.Token
  | .literal c => [.one (.single c)]
  | .token t => (run t.kind).kinds

def sectionKinds : Section → List Pattern.Token
  | .single p => pieceKinds run p
  | .optional body =>
    .opening false :: (body.flatMap (pieceKinds run) ++ [.closing]) ++
      [.quantifier 0 (some 1) .more]

theorem sourceKinds_plain {p : Piece} (plain : p.Plain) (inside : Bool) (rest : List Piece) :
    sourceKinds run inside (p :: rest) = pieceKinds run p ++ sourceKinds run inside rest := by
  cases p with
  | token t => rfl
  | literal c =>
      obtain ⟨opening, closing, star⟩ := plain
      rw [sourceKinds, if_neg fun h => opening h.1, if_neg fun h => closing h.1, literalKind,
        if_neg opening, if_neg closing, if_neg star]
      rfl

theorem sourceKinds_body {body : List Piece} (plain : ∀ p ∈ body, p.Plain) (inside : Bool)
    (rest : List Piece) :
    sourceKinds run inside (body ++ rest) =
      body.flatMap (pieceKinds run) ++ sourceKinds run inside rest := by
  induction body with
  | nil => rfl
  | cons p body ih =>
      obtain ⟨here, others⟩ := List.forall_mem_cons.mp plain
      rw [List.cons_append, sourceKinds_plain run here, ih others, List.flatMap_cons,
        List.append_assoc]

theorem closes_body {body : List Piece} (plain : ∀ p ∈ body, p.Plain ∧ p ≠ .literal '\n')
    (rest : List Piece) : closes (body ++ .literal ')' :: rest) = true := by
  induction body with
  | nil => rfl
  | cons p body ih =>
      obtain ⟨⟨here, line⟩, others⟩ := List.forall_mem_cons.mp plain
      cases p with
      | token t => exact ih others
      | literal c =>
          have feed : c ≠ '\n' := fun same => line (congrArg Piece.literal same)
          rw [List.cons_append, closes, if_neg here.2.1, if_neg feed]
          exact ih others

theorem sourceKinds_sections {sections : List Section} (plain : ∀ s ∈ sections, s.Plain) :
    sourceKinds run false (sections.flatMap Section.pieces) =
      sections.flatMap (sectionKinds run) := by
  induction sections with
  | nil => rfl
  | cons s sections ih =>
      obtain ⟨here, others⟩ := List.forall_mem_cons.mp plain
      rw [List.flatMap_cons, List.flatMap_cons, ← ih others]
      cases s with
      | single p => exact sourceKinds_plain run here false _
      | optional body =>
          let rest := sections.flatMap Section.pieces
          have opening : sourceKinds run false (.literal '(' :: (body ++ .literal ')' :: rest)) =
              .opening false :: sourceKinds run true (body ++ .literal ')' :: rest) := by
            rw [sourceKinds, if_pos ⟨rfl, rfl, closes_body here rest⟩]
          have closing : sourceKinds run true (.literal ')' :: rest) =
              .closing :: .quantifier 0 (some 1) .more :: sourceKinds run false rest := by
            rw [sourceKinds, if_neg fun h => absurd h.1 (by decide), if_pos ⟨rfl, rfl⟩]
          rw [Section.pieces, List.cons_append, List.append_assoc]
          change sourceKinds run false (.literal '(' :: (body ++ .literal ')' :: rest)) = _
          rw [opening, sourceKinds_body run fun p member => (here p member).1, closing,
            sectionKinds]
          simp only [List.append_assoc, List.cons_append, List.nil_append]
          rfl

end Kinds

def tokenCount (ps : List Piece) : Nat := (ps.filterMap Piece.token?).length

theorem tokenCount_append (ps qs : List Piece) :
    tokenCount (ps ++ qs) = tokenCount ps + tokenCount qs := by
  rw [tokenCount, List.filterMap_append, List.length_append]
  rfl

theorem tokenCount_cons (p : Piece) (ps : List Piece) :
    tokenCount (p :: ps) = tokenCount [p] + tokenCount ps :=
  tokenCount_append [p] ps

section Patterns

variable (run : TokenKind → Run)

def piecePattern (slot : Nat) : Piece → Pattern
  | .literal c => .one (.single c)
  | .token t =>
    .group slot (.repeated (run t.kind).least none (run t.kind).preference (.one (run t.kind).cls))

def Run.body (run : Run) : Pattern := .repeated run.least none run.preference (.one run.cls)

def piecePatterns : Nat → List Piece → List Pattern
  | _, [] => []
  | slot, p :: rest => piecePattern run slot p :: piecePatterns (slot + tokenCount [p]) rest

def sectionPattern (slot : Nat) : Section → Pattern
  | .single p => piecePattern run slot p
  | .optional body => .repeated 0 (some 1) .more (seqAll (piecePatterns run slot body))

def sectionPatterns : Nat → List Section → List Pattern
  | _, [] => []
  | slot, s :: rest =>
    sectionPattern run slot s :: sectionPatterns (slot + tokenCount s.pieces) rest

theorem adds_piece {p : Piece} (slot : Nat) :
    Adds (pieceKinds run p) slot [.plain (piecePattern run slot p)] (slot + tokenCount [p]) := by
  cases p with
  | literal c => exact Adds.one (.single c)
  | token t => exact ((Adds.one _).quantified _ _ _).group true

theorem adds_pieces (ps : List Piece) (slot : Nat) :
    Adds (ps.flatMap (pieceKinds run)) slot ((piecePatterns run slot ps).map .plain)
      (slot + tokenCount ps) := by
  induction ps generalizing slot with
  | nil => exact Adds.nil
  | cons p ps ih =>
      have others := (adds_piece run (p := p) slot).append (ih (slot + tokenCount [p]))
      rw [Nat.add_assoc, ← tokenCount_cons] at others
      exact others

theorem adds_section (s : Section) (slot : Nat) :
    ∃ part : Part, part.pattern = sectionPattern run slot s ∧
      Adds (sectionKinds run s) slot [part] (slot + tokenCount s.pieces) := by
  cases s with
  | single p => exact ⟨.plain (piecePattern run slot p), rfl, adds_piece run slot⟩
  | optional body =>
      have count : tokenCount (Section.optional body).pieces = tokenCount body := by
        rw [Section.pieces, tokenCount_cons, tokenCount_append]
        exact Nat.zero_add _
      have patterns : ((piecePatterns run slot body).map Part.plain).map Part.pattern =
          piecePatterns run slot body := by
        rw [List.map_map]
        exact List.map_id _
      have whole := ((adds_pieces run body slot).group false).quantified 0 (some 1) .more
      rw [count]
      refine ⟨_, ?_, whole⟩
      rw [Part.pattern, patterns]
      rfl

theorem adds_sections (sections : List Section) (slot : Nat) :
    ∃ parts : List Part, parts.map Part.pattern = sectionPatterns run slot sections ∧
      Adds (sections.flatMap (sectionKinds run)) slot parts
        (slot + tokenCount (sections.flatMap Section.pieces)) := by
  induction sections generalizing slot with
  | nil => exact ⟨[], rfl, Adds.nil⟩
  | cons s sections ih =>
      obtain ⟨part, pattern, here⟩ := adds_section run s slot
      obtain ⟨parts, patterns, others⟩ := ih (slot + tokenCount s.pieces)
      have both := here.append others
      rw [Nat.add_assoc, ← tokenCount_append] at both
      refine ⟨part :: parts, ?_, both⟩
      rw [List.map_cons, pattern, patterns]
      rfl

theorem slots_piecePattern (slot : Nat) (p : Piece) :
    (piecePattern run slot p).slots = tokenCount [p] := by
  cases p with
  | literal c => rfl
  | token t => rfl

theorem slots_piecePatterns (ps : List Piece) (slot : Nat) :
    (seqAll (piecePatterns run slot ps)).slots = tokenCount ps := by
  rw [Pattern.slots_seqAll]
  induction ps generalizing slot with
  | nil => rfl
  | cons p ps ih =>
      rw [piecePatterns, List.map_cons, List.sum_cons, slots_piecePattern, ih, ← tokenCount_cons]

theorem slots_sectionPatterns (sections : List Section) (slot : Nat) :
    (seqAll (sectionPatterns run slot sections)).slots =
      tokenCount (sections.flatMap Section.pieces) := by
  rw [Pattern.slots_seqAll]
  induction sections generalizing slot with
  | nil => rfl
  | cons s sections ih =>
      have here : (sectionPattern run slot s).slots = tokenCount s.pieces := by
        cases s with
        | single p => exact slots_piecePattern run slot p
        | optional body =>
            rw [sectionPattern, Pattern.slots, slots_piecePatterns, Section.pieces, tokenCount_cons,
              tokenCount_append]
            exact (Nat.zero_add _).symm
      rw [sectionPatterns, List.map_cons, List.sum_cons, here, ih, List.flatMap_cons,
        tokenCount_append]

end Patterns

def narrowedParts (sections : List Section) : List Pattern :=
  .start :: sectionPatterns queryRun 0 sections

theorem slots_narrowedParts (sections : List Section) :
    (seqAll (narrowedParts sections)).slots = tokenCount (sections.flatMap Section.pieces) := by
  rw [narrowedParts, Pattern.slots_start, slots_sectionPatterns]

/-- A template made of sections compiles, to the patterns of its sections. -/
theorem compileFresh_sections {template : Text} {sections : List Section}
    (split : pieces template = sections.flatMap Section.pieces) (plain : ∀ s ∈ sections, s.Plain) :
    (compileFresh standardHost {} template).1 =
      .ok ⟨template, ⟨narrowedSource template, narrowed (narrowedParts sections)⟩,
        tokens template⟩ := by
  have host : ∃ p, Pattern.parse (hostSource template) = .ok p := by
    obtain ⟨parts, _, adds⟩ := adds_sections hostRun sections 0
    have all := (Adds.start.append adds).append Adds.finish
    rw [← sourceKinds_sections hostRun plain, ← split] at all
    exact ⟨_, Pattern.parse_of_adds (kinds_hostSource template) all⟩
  have query : Pattern.parse (narrowedSource template) =
      .ok (narrowed (narrowedParts sections)) := by
    obtain ⟨parts, patterns, adds⟩ := adds_sections queryRun sections 0
    have all := (Adds.start.append adds).append ((adds_queryKinds _).append Adds.finish)
    rw [← sourceKinds_sections queryRun plain, ← split] at all
    rw [List.append_assoc] at all
    rw [Pattern.parse_of_adds (kinds_narrowedSource template) all, narrowed, slots_narrowedParts,
      narrowedParts, List.map_append, List.map_append, patterns, Nat.zero_add, split]
    rfl
  exact compileFresh_eq_ok_iff.mpr ⟨host, _, query, rfl⟩

end FragmentRouting.Template
