import FragmentRouting.Proofs.Pattern.Language
import FragmentRouting.Proofs.Template.Memory
import FragmentRouting.Proofs.Template.Section

namespace FragmentRouting.Template

open Pattern (Regular seqAll)

/-- Whether a text may stand for a token of some kind. -/
def TokenKind.Admits : TokenKind → Text → Prop
  | .named, v => '/' ∉ v ∧ '?' ∉ v
  | .splat, v => '?' ∉ v

instance (kind : TokenKind) (v : Text) : Decidable (kind.Admits v) :=
  match kind with
  | .named => inferInstanceAs (Decidable ('/' ∉ v ∧ '?' ∉ v))
  | .splat => inferInstanceAs (Decidable ('?' ∉ v))

theorem mark_not_mem_of_admits {kind : TokenKind} {v : Text} (admits : kind.Admits v) :
    '?' ∉ v := by
  cases kind with
  | named => exact admits.2
  | splat => exact admits

/-- The texts that the pieces of a template spell: a character stands for itself, a token for any
text that its kind admits, and an optional part for nothing or for what its own pieces spell. -/
inductive Spells : List Piece → Text → Prop
  | nil : Spells [] []
  | literal {c : Char} {rest : List Piece} {u : Text} (opening : c ≠ '(') (closing : c ≠ ')')
      (others : Spells rest u) : Spells (.literal c :: rest) (c :: u)
  | token {t : Token} {rest : List Piece} {v u : Text} (admits : t.kind.Admits v)
      (others : Spells rest u) : Spells (.token t :: rest) (v ++ u)
  | taken {body rest : List Piece} {v u : Text} (first : .literal ')' ∉ body)
      (inside : Spells body v) (others : Spells rest u) :
      Spells (.literal '(' :: (body ++ .literal ')' :: rest)) (v ++ u)
  | skipped {body rest : List Piece} {u : Text} (first : .literal ')' ∉ body)
      (others : Spells rest u) : Spells (.literal '(' :: (body ++ .literal ')' :: rest)) u

theorem mem_language_one {cls : CharClass} {u : Text} :
    u ∈ (Pattern.one cls).language ↔ ∃ c, cls.contains c = true ∧ u = [c] := Iff.rfl

theorem flatten_singles {cls : CharClass} {words : List Text}
    (inside : ∀ word ∈ words, word ∈ (Pattern.one cls).language) :
    words.flatten.length = words.length ∧ ∀ c ∈ words.flatten, cls.contains c = true := by
  induction words with
  | nil => exact ⟨rfl, List.forall_mem_nil _⟩
  | cons word words ih =>
      obtain ⟨here, others⟩ := List.forall_mem_cons.mp inside
      obtain ⟨c, contains, rfl⟩ := mem_language_one.mp here
      obtain ⟨length, all⟩ := ih others
      refine ⟨?_, List.forall_mem_cons.mpr ⟨contains, all⟩⟩
      rw [List.flatten_cons, List.length_append, length, List.length_cons, Nat.add_comm]
      rfl

theorem singles_mem {cls : CharClass} {u : Text} (contains : ∀ c ∈ u, cls.contains c = true) :
    ∀ word ∈ u.map fun c => [c], word ∈ (Pattern.one cls).language := by
  intro word listed
  obtain ⟨c, member, rfl⟩ := List.mem_map.mp listed
  exact mem_language_one.mpr ⟨c, contains c member, rfl⟩

theorem flatten_map_single (u : Text) : (u.map fun c => [c]).flatten = u := by
  rw [← List.flatMap_def, List.flatMap_singleton']

theorem mem_language_run {cls : CharClass} {least : Nat} {preference : Preference} {u : Text} :
    u ∈ (Pattern.repeated least none preference (.one cls)).language ↔
      least ≤ u.length ∧ ∀ c ∈ u, cls.contains c = true := by
  rw [Pattern.language, Language.mem_mul]
  constructor
  · rintro ⟨v, first, w, others, rfl⟩
    obtain ⟨words, rfl, rfl, inside⟩ := Language.mem_pow.mp first
    obtain ⟨more, rfl, inside'⟩ := Language.mem_kstar.mp others
    obtain ⟨length, contains⟩ := flatten_singles inside
    rw [List.length_append, length]
    exact ⟨Nat.le_add_right _ _,
      List.forall_mem_append.mpr ⟨contains, (flatten_singles inside').2⟩⟩
  · rintro ⟨enough, contains⟩
    refine ⟨u.take least, ?_, u.drop least, ?_, List.take_append_drop least u⟩
    · refine Language.mem_pow.mpr ⟨(u.take least).map fun c => [c], ?_, ?_, ?_⟩
      · exact (flatten_map_single _).symm
      · rw [List.length_map, List.length_take_of_le enough]
      · exact singles_mem fun c member => contains c (List.mem_of_mem_take member)
    · refine Language.mem_kstar.mpr ⟨(u.drop least).map fun c => [c], ?_, ?_⟩
      · exact (flatten_map_single _).symm
      · exact singles_mem fun c member => contains c (List.mem_of_mem_drop member)

theorem admits_iff {kind : TokenKind} {v : Text} :
    kind.Admits v ↔ ∀ c ∈ v, (queryRun kind).cls.contains c = true := by
  have outside (d : Char) : d ∉ v ↔ ∀ c ∈ v, c ≠ d :=
    ⟨fun h c member same => h (same ▸ member), fun h member => h d member rfl⟩
  cases kind with
  | named =>
      simp only [TokenKind.Admits, queryRun, CharClass.others_contains_iff, outside]
      exact ⟨fun h c member => ⟨h.1 c member, h.2 c member⟩,
        fun h => ⟨fun c member => (h c member).1, fun c member => (h c member).2⟩⟩
  | splat => simp only [TokenKind.Admits, queryRun, CharClass.other_contains_iff, outside]

theorem mem_language_token {t : Token} {slot : Nat} {u : Text} :
    u ∈ (piecePattern queryRun slot (.token t)).language ↔ t.kind.Admits u := by
  have least : (queryRun t.kind).least = 0 := by
    cases t.kind <;> rfl
  have covers : u ∈ (Pattern.repeated 0 none (queryRun t.kind).preference
      (.one (queryRun t.kind).cls)).language ↔ _ := mem_language_run
  rw [admits_iff, piecePattern, least]
  exact covers.trans (and_iff_right (Nat.zero_le _))

theorem mem_language_literal {run : TokenKind → Run} {c : Char} {slot : Nat} {u : Text} :
    u ∈ (piecePattern run slot (.literal c)).language ↔ u = [c] := by
  rw [piecePattern, mem_language_one]
  constructor
  · rintro ⟨d, contains, rfl⟩
    rw [CharClass.single_contains_iff.mp contains]
  · intro same
    exact ⟨c, CharClass.single_contains_iff.mpr rfl, same⟩

theorem spells_piece_iff {p : Piece} (plain : p.Plain) (slot : Nat) {rest : List Piece} {u : Text} :
    Spells (p :: rest) u ↔
      ∃ v ∈ (piecePattern queryRun slot p).language, ∃ w, Spells rest w ∧ v ++ w = u := by
  constructor
  · intro h
    cases h with
    | literal opening closing others => exact ⟨_, mem_language_literal.mpr rfl, _, others, rfl⟩
    | token admits others => exact ⟨_, mem_language_token.mpr admits, _, others, rfl⟩
    | taken first inside others => exact absurd rfl plain.1
    | skipped first others => exact absurd rfl plain.1
  · rintro ⟨v, inside, w, others, rfl⟩
    cases p with
    | literal c =>
        rw [mem_language_literal.mp inside]
        exact .literal plain.1 plain.2.1 others
    | token t => exact .token (mem_language_token.mp inside) others

theorem spells_nil_iff {u : Text} : Spells [] u ↔ u = [] := by
  constructor
  · intro h
    cases h
    rfl
  · intro same
    rw [same]
    exact .nil

theorem mem_language_pieces {body : List Piece} (plain : ∀ p ∈ body, p.Plain) (slot : Nat)
    {u : Text} : u ∈ (seqAll (piecePatterns queryRun slot body)).language ↔ Spells body u := by
  induction body generalizing slot u with
  | nil => exact spells_nil_iff.symm
  | cons p body ih =>
      obtain ⟨here, others⟩ := List.forall_mem_cons.mp plain
      rw [piecePatterns, Pattern.language_seqAll_cons, Language.mem_mul, spells_piece_iff here slot]
      simp only [ih others]

theorem cut_unique {α : Type} {a : α} {us vs us' vs' : List α} (first : a ∉ us) (first' : a ∉ us')
    (same : us ++ a :: vs = us' ++ a :: vs') : us = us' ∧ vs = vs' := by
  induction us generalizing us' with
  | nil =>
      cases us' with
      | nil => exact ⟨rfl, (List.cons.inj same).2⟩
      | cons b us' =>
          rw [(List.cons.inj same).1] at first'
          exact absurd List.mem_cons_self first'
  | cons b us ih =>
      cases us' with
      | nil =>
          rw [← (List.cons.inj same).1] at first
          exact absurd List.mem_cons_self first
      | cons b' us' =>
          obtain ⟨heads, tails⟩ := List.cons.inj same
          have inner := ih (fun member => first (List.mem_cons_of_mem b member))
            (fun member => first' (List.mem_cons_of_mem b' member)) tails
          exact ⟨congrArg₂ List.cons heads inner.1, inner.2⟩

theorem spells_optional_iff {body rest : List Piece} (first : .literal ')' ∉ body) {u : Text} :
    Spells (.literal '(' :: (body ++ .literal ')' :: rest)) u ↔
      (∃ v w, Spells body v ∧ Spells rest w ∧ v ++ w = u) ∨ Spells rest u := by
  constructor
  · intro h
    generalize whole : Piece.literal '(' :: (body ++ .literal ')' :: rest) = ps at h
    cases h with
    | nil => exact absurd whole nofun
    | literal opening closing others =>
        exact absurd (Piece.literal.inj (List.cons.inj whole).1).symm opening
    | token admits others => exact absurd (List.cons.inj whole).1 nofun
    | taken first' inside others =>
        obtain ⟨rfl, rfl⟩ := cut_unique first first' (List.cons.inj whole).2
        exact .inl ⟨_, _, inside, others, rfl⟩
    | skipped first' others =>
        obtain ⟨rfl, rfl⟩ := cut_unique first first' (List.cons.inj whole).2
        exact .inr others
  · rintro (⟨v, w, inside, others, rfl⟩ | others)
    · exact .taken first inside others
    · exact .skipped first others

theorem spells_section_iff {s : Section} (plain : s.Plain) (slot : Nat) {rest : List Piece}
    {u : Text} :
    Spells (s.pieces ++ rest) u ↔
      ∃ v ∈ (sectionPattern queryRun slot s).language, ∃ w, Spells rest w ∧ v ++ w = u := by
  cases s with
  | single p => exact spells_piece_iff plain slot
  | optional body =>
      have first : .literal ')' ∉ body := fun member => (plain _ member).1.2.1 rfl
      have shown : (Section.optional body).pieces ++ rest =
          .literal '(' :: (body ++ .literal ')' :: rest) := by
        rw [Section.pieces, List.cons_append, List.append_assoc]
        rfl
      have inside (v : Text) : v ∈ (sectionPattern queryRun slot (.optional body)).language ↔
          v = [] ∨ Spells body v := by
        have once : (sectionPattern queryRun slot (.optional body)).language =
            1 + (seqAll (piecePatterns queryRun slot body)).language := by
          rw [sectionPattern, Pattern.language, pow_zero, one_mul, Nat.sub_zero, pow_one]
        rw [once, Language.mem_add, Language.mem_one,
          mem_language_pieces fun p member => (plain p member).1]
      rw [shown, spells_optional_iff first]
      simp only [inside]
      constructor
      · rintro (⟨v, w, body, others, same⟩ | others)
        · exact ⟨v, .inr body, w, others, same⟩
        · exact ⟨[], .inl rfl, u, others, rfl⟩
      · rintro ⟨v, rfl | body, w, others, rfl⟩
        · exact .inr others
        · exact .inl ⟨v, w, body, others, rfl⟩

theorem mem_language_sections {sections : List Section} (plain : ∀ s ∈ sections, s.Plain)
    (slot : Nat) {u : Text} :
    u ∈ (seqAll (sectionPatterns queryRun slot sections)).language ↔
      Spells (sections.flatMap Section.pieces) u := by
  induction sections generalizing slot u with
  | nil => exact spells_nil_iff.symm
  | cons s sections ih =>
      obtain ⟨here, others⟩ := List.forall_mem_cons.mp plain
      rw [sectionPatterns, Pattern.language_seqAll_cons, Language.mem_mul, List.flatMap_cons,
        spells_section_iff here slot]
      simp only [ih others]

section Regular

variable {run : TokenKind → Run} (backtracks : ∀ kind, (run kind).preference ≠ .most)

include backtracks

theorem regular_piecePattern (slot : Nat) (p : Piece) : Regular (piecePattern run slot p) := by
  cases p with
  | literal c => trivial
  | token t => exact ⟨backtracks t.kind, trivial⟩

theorem regular_pieces (body : List Piece) (slot : Nat) :
    Regular (seqAll (piecePatterns run slot body)) := by
  rw [Pattern.regular_seqAll]
  induction body generalizing slot with
  | nil => exact nofun
  | cons p body ih =>
      exact List.forall_mem_cons.mpr ⟨regular_piecePattern backtracks slot p, ih _⟩

end Regular

theorem regular_sections (sections : List Section) (slot : Nat) :
    Regular (seqAll (sectionPatterns queryRun slot sections)) := by
  rw [Pattern.regular_seqAll]
  induction sections generalizing slot with
  | nil => exact nofun
  | cons s sections ih =>
      refine List.forall_mem_cons.mpr ⟨?_, ih _⟩
      cases s with
      | single p => exact regular_piecePattern queryRun_preference slot p
      | optional body => exact ⟨nofun, regular_pieces queryRun_preference body slot⟩

end FragmentRouting.Template
