import FragmentRouting.Proofs.Pattern.Outline
import FragmentRouting.Proofs.Template.Section

/-!
Templates as forests. Whatever parentheses and stars a template has, if its source can be read then
they pair off into groups, each repeated or not, around the pieces. The host's pattern and the
narrowed one are given part by part, over the same forest.
-/
namespace FragmentRouting.Template

open Pattern (Adds Ending Outline Part seqAll)

/-! ### Lexemes -/

/-- What the source of a template is made of, whatever its tokens cover. -/
inductive Lexeme where
  | piece (p : Piece)
  /-- Opens a group, one with a slot if `captures`. -/
  | opening (captures : Bool)
  | closing
  | mark
  | star
  deriving DecidableEq, Repr

def literalLexeme (c : Char) : Lexeme :=
  if c = '(' then .opening true
  else if c = ')' then .closing
  else if c = '*' then .star
  else .piece (.literal c)

/-- The lexemes of some pieces, `inside` an optional part or not. -/
def lexemes : Bool → List Piece → List Lexeme
  | _, [] => []
  | inside, .token t :: rest => .piece (.token t) :: lexemes inside rest
  | inside, .literal c :: rest =>
    if c = '(' ∧ inside = false ∧ closes rest = true then .opening false :: lexemes true rest
    else if c = ')' ∧ inside = true then .closing :: .mark :: lexemes false rest
    else literalLexeme c :: lexemes inside rest

section Kinds

variable (run : TokenKind → Run)

def Lexeme.kinds : Lexeme → List Pattern.Token
  | .piece p => pieceKinds run p
  | .opening captures => [.opening captures]
  | .closing => [.closing]
  | .mark => [.quantifier 0 (some 1) .more]
  | .star => [.quantifier 0 none .more]

theorem kinds_literalLexeme (c : Char) : (literalLexeme c).kinds run = [literalKind c] := by
  rw [literalLexeme, literalKind]
  repeat' split
  all_goals rfl

theorem outline_pieceKinds (p : Piece) (outline : Outline) :
    Outline.run (pieceKinds run p) outline = some ⟨.plain, outline.depth⟩ := by
  cases p with
  | literal c => rfl
  | token t => rfl

theorem sourceKinds_eq (inside : Bool) (ps : List Piece) :
    sourceKinds run inside ps = (lexemes inside ps).flatMap (Lexeme.kinds run) := by
  induction ps generalizing inside with
  | nil => rfl
  | cons p rest ih =>
      cases p with
      | token t =>
          rw [sourceKinds, lexemes, List.flatMap_cons, ← ih]
          rfl
      | literal c =>
          rw [sourceKinds, lexemes]
          split
          · rw [List.flatMap_cons, ← ih]
            rfl
          split
          · rw [List.flatMap_cons, List.flatMap_cons, ← ih]
            rfl
          · rw [List.flatMap_cons, ← ih, kinds_literalLexeme]
            rfl

end Kinds

/-! ### Forests -/

/-- How often a part may stand in a path. -/
inductive Quantity where
  | once
  | optional
  | any
  deriving DecidableEq, Repr

def Quantity.lexemes : Quantity → List Lexeme
  | .once => []
  | .optional => [.mark]
  | .any => [.star]

/-- The parts of a template, and the groups among them with their own parts. -/
inductive Forest where
  | nil
  | piece (p : Piece) (quantity : Quantity) (rest : Forest)
  | group (captures : Bool) (quantity : Quantity) (body rest : Forest)

namespace Forest

def lexemes : Forest → List Lexeme
  | nil => []
  | piece p quantity rest => .piece p :: (quantity.lexemes ++ rest.lexemes)
  | group captures quantity body rest =>
    .opening captures :: (body.lexemes ++ .closing :: (quantity.lexemes ++ rest.lexemes))

end Forest

/-- Whether lexemes are a forest, and for each of some open groups, from the inside out, a closing
parenthesis and another forest. -/
def Closes : Nat → List Lexeme → Prop
  | 0, ls => ∃ forest : Forest, ls = forest.lexemes
  | depth + 1, ls => ∃ (forest : Forest) (quantity : Quantity) (rest : List Lexeme),
    ls = forest.lexemes ++ .closing :: (quantity.lexemes ++ rest) ∧ Closes depth rest

namespace Closes

variable {depth : Nat} {ls : List Lexeme}

theorem piece (h : Closes depth ls) (p : Piece) (quantity : Quantity) :
    Closes depth (.piece p :: (quantity.lexemes ++ ls)) := by
  cases depth with
  | zero =>
      obtain ⟨forest, rfl⟩ := h
      exact ⟨.piece p quantity forest, rfl⟩
  | succ depth =>
      obtain ⟨forest, after, rest, rfl, others⟩ := h
      refine ⟨.piece p quantity forest, after, rest, ?_, others⟩
      rw [Forest.lexemes, List.cons_append, List.append_assoc]

theorem close (h : Closes depth ls) (quantity : Quantity) :
    Closes (depth + 1) (.closing :: (quantity.lexemes ++ ls)) :=
  ⟨.nil, quantity, ls, rfl, h⟩

theorem opened (h : Closes (depth + 1) ls) (captures : Bool) :
    Closes depth (.opening captures :: ls) := by
  obtain ⟨body, quantity, rest, rfl, h⟩ := h
  cases depth with
  | zero =>
      obtain ⟨forest, rfl⟩ := h
      exact ⟨.group captures quantity body forest, rfl⟩
  | succ depth =>
      obtain ⟨forest, after, rest, rfl, others⟩ := h
      refine ⟨.group captures quantity body forest, after, rest, ?_, others⟩
      simp only [Forest.lexemes, List.cons_append, List.append_assoc]

end Closes

/-- Lexemes that can be read to the end start with what is left of a part, a quantity, which needs
something before it that is not repeated yet; then their groups close. -/
theorem closes_of_run {ls : List Lexeme} {run : TokenKind → Run} {ending last : Ending}
    {depth : Nat} (read : Outline.run (ls.flatMap (Lexeme.kinds run)) ⟨ending, depth⟩ =
      some ⟨last, 0⟩) :
    ∃ (quantity : Quantity) (rest : List Lexeme), ls = quantity.lexemes ++ rest ∧
      Closes depth rest ∧ (quantity ≠ .once → ending = .plain) := by
  induction ls generalizing ending depth with
  | nil =>
      have ended : depth = 0 := congrArg Outline.depth (Option.some.inj read)
      rw [ended]
      exact ⟨.once, [], rfl, ⟨.nil, rfl⟩, fun other => absurd rfl other⟩
  | cons l ls ih =>
      rw [List.flatMap_cons, Outline.run_append] at read
      -- A quantity is pending only right after a part that is not repeated.
      have fresh {ending : Ending} {depth : Nat} (other : ending ≠ .plain)
          (read : Outline.run (ls.flatMap (Lexeme.kinds run)) ⟨ending, depth⟩ = some ⟨last, 0⟩) :
          Closes depth ls := by
        obtain ⟨quantity, rest, rfl, closes, plain⟩ := ih read
        cases quantity with
        | once => exact closes
        | optional => exact absurd (plain nofun) other
        | any => exact absurd (plain nofun) other
      have twice : Ending.repeated ≠ .plain := nofun
      cases l with
      | piece p =>
          change (Outline.run (pieceKinds run p) ⟨ending, depth⟩).bind _ = _ at read
          rw [outline_pieceKinds] at read
          obtain ⟨quantity, rest, rfl, closes, _⟩ := ih read
          exact ⟨.once, _, rfl, closes.piece p quantity, fun other => absurd rfl other⟩
      | opening captures =>
          have other : Ending.nothing ≠ .plain := nofun
          have closes : Closes (depth + 1) ls := fresh other read
          exact ⟨.once, _, rfl, closes.opened captures, fun other => absurd rfl other⟩
      | closing =>
          cases depth with
          | zero => cases read
          | succ depth =>
              have read : Outline.run (ls.flatMap (Lexeme.kinds run)) ⟨.plain, depth⟩ =
                  some ⟨last, 0⟩ := read
              obtain ⟨quantity, rest, rfl, closes, _⟩ := ih read
              exact ⟨.once, _, rfl, closes.close quantity, fun other => absurd rfl other⟩
      | mark =>
          cases ending with
          | plain => exact ⟨.optional, ls, rfl, fresh twice read, fun _ => rfl⟩
          | nothing | anchor | repeated => cases read
      | star =>
          cases ending with
          | plain => exact ⟨.any, ls, rfl, fresh twice read, fun _ => rfl⟩
          | nothing | anchor | repeated => cases read

/-- The lexemes of a template whose source can be read are those of a forest. -/
theorem exists_forest {template : Text}
    (readable : ∃ p, Pattern.parse (hostSource template) = .ok p) :
    ∃ forest : Forest, lexemes false (pieces template) = forest.lexemes := by
  obtain ⟨ending, read⟩ := (Pattern.exists_parse_iff _).mp readable
  rw [kinds_hostSource, sourceKinds_eq, Outline.run_cons] at read
  change Outline.run (_ ++ [.finish]) ⟨.anchor, 0⟩ = _ at read
  rw [Outline.run_append, Option.bind_eq_some_iff] at read
  obtain ⟨⟨last, depth⟩, read, finished⟩ := read
  have ended : depth = 0 := congrArg Outline.depth (Option.some.inj finished)
  rw [ended] at read
  obtain ⟨quantity, rest, split, closes, plain⟩ := closes_of_run read
  cases quantity with
  | once =>
      obtain ⟨forest, same⟩ := closes
      exact ⟨forest, split.trans same⟩
  | optional => exact absurd (plain nofun) nofun
  | any => exact absurd (plain nofun) nofun

/-! ### Patterns of forests -/

def Quantity.applied : Quantity → Pattern → Pattern
  | .once, p => p
  | .optional, p => .repeated 0 (some 1) .more p
  | .any, p => .repeated 0 none .more p

def groupPattern (captures : Bool) (slot : Nat) (body : List Pattern) : Pattern :=
  if captures then .group slot (seqAll body) else seqAll body

namespace Forest

def slots : Forest → Nat
  | nil => 0
  | piece p _ rest => tokenCount [p] + rest.slots
  | group captures _ body rest => captures.toNat + body.slots + rest.slots

section Patterns

variable (run : TokenKind → Run)

/-- The patterns of a forest, whose slots start at some number. -/
def patterns : Nat → Forest → List Pattern
  | _, nil => []
  | slot, piece p quantity rest =>
    quantity.applied (piecePattern run slot p) :: patterns (slot + tokenCount [p]) rest
  | slot, group captures quantity body rest =>
    quantity.applied (groupPattern captures slot (patterns (slot + captures.toNat) body)) ::
      patterns (slot + captures.toNat + body.slots) rest

theorem adds_quantity {kinds : List Pattern.Token} {p : Pattern} {n n' : Nat}
    (adds : Adds kinds n [.plain p] n') (quantity : Quantity) :
    ∃ part : Part, part.pattern = quantity.applied p ∧
      Adds (kinds ++ quantity.lexemes.flatMap (Lexeme.kinds run)) n [part] n' := by
  cases quantity with
  | once =>
      refine ⟨.plain p, rfl, ?_⟩
      rw [Quantity.lexemes, List.flatMap_nil, List.append_nil]
      exact adds
  | optional => exact ⟨_, rfl, adds.quantified 0 (some 1) .more⟩
  | any => exact ⟨_, rfl, adds.quantified 0 none .more⟩

theorem kinds_group (captures : Bool) (quantity : Quantity) (body rest : Forest) :
    (group captures quantity body rest).lexemes.flatMap (Lexeme.kinds run) =
      (.opening captures :: (body.lexemes.flatMap (Lexeme.kinds run) ++ [.closing])) ++
          quantity.lexemes.flatMap (Lexeme.kinds run) ++
        rest.lexemes.flatMap (Lexeme.kinds run) := by
  simp only [Forest.lexemes, List.flatMap_cons, List.flatMap_append, List.append_assoc,
    List.cons_append]
  rfl

theorem adds (forest : Forest) (slot : Nat) :
    ∃ parts : List Part, parts.map Part.pattern = patterns run slot forest ∧
      Adds (forest.lexemes.flatMap (Lexeme.kinds run)) slot parts (slot + forest.slots) := by
  induction forest generalizing slot with
  | nil => exact ⟨[], rfl, Adds.nil⟩
  | piece p quantity rest ih =>
      obtain ⟨part, pattern, here⟩ := adds_quantity run (adds_piece run (p := p) slot) quantity
      obtain ⟨parts, others, behind⟩ := ih (slot + tokenCount [p])
      refine ⟨part :: parts, ?_, ?_⟩
      · rw [List.map_cons, pattern, others]
        rfl
      · have all := here.append behind
        rw [Nat.add_assoc, List.append_assoc] at all
        rw [Forest.lexemes, List.flatMap_cons, List.flatMap_append]
        exact all
  | group captures quantity body rest ihBody ihRest =>
      obtain ⟨inner, patterns_, inside⟩ := ihBody (slot + captures.toNat)
      have opened : (if captures then slot + 1 else slot) = slot + captures.toNat := by
        cases captures with
        | true => rfl
        | false => rfl
      rw [← opened] at inside
      obtain ⟨part, pattern, here⟩ := adds_quantity run (inside.group captures) quantity
      obtain ⟨parts, others, behind⟩ := ihRest (slot + captures.toNat + body.slots)
      refine ⟨part :: parts, ?_, ?_⟩
      · rw [List.map_cons, pattern, others, patterns_]
        rfl
      · rw [opened] at here
        have all := here.append behind
        have count : slot + (group captures quantity body rest).slots =
            slot + captures.toNat + body.slots + rest.slots := by
          rw [Forest.slots]
          omega
        rw [count, kinds_group]
        exact all

theorem slots_applied (quantity : Quantity) (p : Pattern) :
    (quantity.applied p).slots = p.slots := by
  cases quantity with
  | once | optional | any => rfl

theorem slots_groupPattern (captures : Bool) (slot : Nat) (body : List Pattern) :
    (groupPattern captures slot body).slots = captures.toNat + (seqAll body).slots := by
  cases captures with
  | true => exact Nat.add_comm _ 1
  | false => exact (Nat.zero_add _).symm

theorem slots_patterns (forest : Forest) (slot : Nat) :
    (seqAll (patterns run slot forest)).slots = forest.slots := by
  induction forest generalizing slot with
  | nil => rfl
  | piece p quantity rest ih =>
      rw [patterns, Pattern.slots_seqAll_cons, ih, slots_applied, slots_piecePattern]
      rfl
  | group captures quantity body rest ihBody ihRest =>
      rw [patterns, Pattern.slots_seqAll_cons, ihRest, slots_applied, slots_groupPattern, ihBody]
      rfl

end Patterns

def hostPattern (forest : Forest) : Pattern :=
  seqAll (.start :: (patterns hostRun 0 forest ++ [.finish]))

def queryPattern (forest : Forest) : Pattern := narrowed (.start :: patterns queryRun 0 forest)

end Forest

/-- A template that compiles is a forest, of which the host's pattern and the narrowed one are
made. -/
theorem compileFresh_forest {template : Text} {compiled : Compiled}
    (h : (compileFresh standardHost {} template).1 = .ok compiled) :
    ∃ forest : Forest, lexemes false (pieces template) = forest.lexemes ∧
      standardHost template = .ok ⟨hostSource template, forest.hostPattern⟩ ∧
      compiled = ⟨template, ⟨narrowedSource template, forest.queryPattern⟩, tokens template⟩ := by
  obtain ⟨readable, p, narrowed_, rfl⟩ := compileFresh_eq_ok_iff.mp h
  obtain ⟨forest, same⟩ := exists_forest readable
  have host : Pattern.parse (hostSource template) = .ok forest.hostPattern := by
    obtain ⟨parts, patterns, adds⟩ := forest.adds hostRun 0
    have all := (Adds.start.append adds).append Adds.finish
    rw [← same, ← sourceKinds_eq] at all
    rw [Pattern.parse_of_adds (kinds_hostSource template) all, List.map_append, List.map_append,
      patterns]
    rfl
  have query : Pattern.parse (narrowedSource template) = .ok forest.queryPattern := by
    obtain ⟨parts, patterns, adds⟩ := forest.adds queryRun 0
    have all := (Adds.start.append adds).append ((adds_queryKinds _).append Adds.finish)
    rw [← same, ← sourceKinds_eq, List.append_assoc] at all
    have slots : (seqAll (.start :: forest.patterns queryRun 0)).slots = 0 + forest.slots := by
      rw [Pattern.slots_start, forest.slots_patterns, Nat.zero_add]
    rw [Pattern.parse_of_adds (kinds_narrowedSource template) all, Forest.queryPattern, narrowed,
      slots, List.map_append, List.map_append, patterns]
    rfl
  refine ⟨forest, same, ?_, ?_⟩
  · rw [standardHost, Matcher.ofSource, host]
  · rw [Except.ok.inj (narrowed_.symm.trans query)]

end FragmentRouting.Template
