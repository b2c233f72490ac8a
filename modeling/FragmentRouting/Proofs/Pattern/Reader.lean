import FragmentRouting.Pattern.Parser
import FragmentRouting.Proofs.Except
import FragmentRouting.Proofs.Pattern.Barrier
import FragmentRouting.Proofs.Pattern.Token

namespace FragmentRouting.Pattern

/-- Whether a token stands for nothing that passes over a character or looks for the end of the
text. -/
def Token.Stops (c : Char) : Token → Prop
  | .one cls => cls.contains c = false
  | .start | .opening _ | .closing => True
  | .quantifier _ _ preference => preference ≠ .most
  | .finish | .bar | .flawed _ => False

/-- Whether the parts of a level stop at a character and use slots below a number. -/
structure Level.Stops (c : Char) (slots : Nat) (level : Level) : Prop where
  choices : level.choices = []
  parts : ∀ part ∈ level.parts,
    Pattern.Stops c part.pattern ∧ SlotsIn (· < slots) part.pattern

/-- How many slots the parts of a level use. -/
def Level.taken (level : Level) : Nat := (level.parts.map (·.pattern.slots)).sum

/-- How many slots an open group uses, without what stands in it. -/
def Group.taken (g : Group) : Nat := g.around.taken + if g.slot.isSome then 1 else 0

/-- Whether everything read so far stops at a character, with slots numbered in order. -/
structure Reader.Stops (c : Char) (r : Reader) : Prop where
  level : r.level.Stops c r.slots
  around : ∀ g ∈ r.groups, g.around.Stops c r.slots
  below : ∀ g ∈ r.groups, ∀ slot ∈ g.slot, slot < r.slots
  taken : r.level.taken + (r.groups.map Group.taken).sum = r.slots

namespace Level

variable {c : Char} {slots : Nat} {level : Level}

theorem Stops.mono (h : level.Stops c slots) {more : Nat} (le : slots ≤ more) :
    level.Stops c more where
  choices := h.choices
  parts part member :=
    ⟨(h.parts part member).1,
      (h.parts part member).2.mono fun _ below => Nat.lt_of_lt_of_le below le⟩

theorem Stops.push (h : level.Stops c slots) (part : Part) (stops : Pattern.Stops c part.pattern)
    (own : SlotsIn (· < slots) part.pattern) : (level.push part).Stops c slots where
  choices := h.choices
  parts := List.forall_mem_cons.mpr ⟨⟨stops, own⟩, h.parts⟩

theorem stops_empty : ({} : Level).Stops c slots := ⟨rfl, nofun⟩

theorem taken_push (part : Part) : (level.push part).taken = part.pattern.slots + level.taken := by
  rw [taken, push, List.map_cons, List.sum_cons]
  rfl

/-- The patterns of the parts of a level, in the order of the text. -/
def patterns (level : Level) : List Pattern := level.parts.reverse.map Part.pattern

theorem pattern_of_choices (h : level.choices = []) : level.pattern = seqAll level.patterns := by
  rw [pattern, h]
  rfl

theorem pattern_of_parts (parts : List Part) :
    (⟨[], parts.reverse ++ []⟩ : Level).pattern = seqAll (parts.map Part.pattern) := by
  rw [List.append_nil, pattern_of_choices rfl, patterns, List.reverse_reverse]

theorem slots_patterns : (seqAll level.patterns).slots = level.taken := by
  rw [slots_seqAll, patterns, taken, List.map_map, List.map_reverse]
  exact List.sum_reverse _

theorem Stops.patterns (h : level.Stops c slots) :
    ∀ p ∈ level.patterns, Pattern.Stops c p ∧ SlotsIn (· < slots) p := by
  intro p member
  obtain ⟨part, within, rfl⟩ := List.mem_map.mp member
  exact h.parts part (List.mem_reverse.mp within)

end Level

namespace Reader

variable {c : Char} {r r' : Reader}

theorem stops_empty : ({} : Reader).Stops c where
  level := Level.stops_empty
  around := nofun
  below := nofun
  taken := rfl

theorem Stops.push (h : r.Stops c) (part : Part) (stops : Pattern.Stops c part.pattern)
    (own : SlotsIn (· < r.slots) part.pattern) (none_ : part.pattern.slots = 0) :
    (r.push part).Stops c where
  level := h.level.push part stops own
  around := h.around
  below := h.below
  taken := by
    have same : (r.level.push part).taken = r.level.taken := by
      rw [Level.taken_push, none_, Nat.zero_add]
    exact (congrArg (· + _) same).trans h.taken

theorem Stops.opening (h : r.Stops c) (captures : Bool) (opened : Nat) :
    Reader.Stops c
      { level := {}
        groups := ⟨opened, if captures then some r.slots else none, r.level⟩ :: r.groups
        slots := if captures then r.slots + 1 else r.slots } := by
  have le : r.slots ≤ if captures then r.slots + 1 else r.slots := by
    split
    · exact Nat.le_succ _
    · exact Nat.le_refl _
  constructor
  · exact Level.stops_empty
  · exact List.forall_mem_cons.mpr ⟨h.level.mono le, fun g member => (h.around g member).mono le⟩
  · intro g member slot inside
    rcases List.mem_cons.mp member with rfl | member
    · cases captures with
      | true =>
          rw [← Option.some.inj inside]
          exact Nat.lt_succ_self _
      | false => exact absurd inside nofun
    · exact Nat.lt_of_lt_of_le (h.below g member slot inside) le
  · have total := h.taken
    cases captures with
    | true =>
        simp only [List.map_cons, List.sum_cons, Group.taken, Option.isSome_some, if_true,
          Level.taken, List.map_nil, List.sum_nil] at total ⊢
        omega
    | false =>
        simp only [List.map_cons, List.sum_cons, Group.taken, Option.isSome_none, if_false,
          Level.taken, List.map_nil, List.sum_nil, Bool.false_eq_true] at total ⊢
        omega

theorem Stops.close (h : r.Stops c) (closed : r.close = .ok r') : r'.Stops c := by
  obtain ⟨level, groups, slots⟩ := r
  cases groups with
  | nil => exact absurd closed nofun
  | cons g rest =>
      obtain ⟨opened, slot, around⟩ := g
      obtain ⟨aroundStops, othersAround⟩ := List.forall_mem_cons.mp h.around
      obtain ⟨slotBelow, othersBelow⟩ := List.forall_mem_cons.mp h.below
      have body : level.pattern = seqAll level.patterns := Level.pattern_of_choices h.level.choices
      have parts := h.level.patterns
      have stops : Pattern.Stops c level.pattern := by
        rw [body]
        exact stops_seqAll.mpr fun p member => (parts p member).1
      have own : SlotsIn (· < slots) level.pattern := by
        rw [body]
        exact slotsIn_seqAll.mpr fun p member => (parts p member).2
      have size : level.pattern.slots = level.taken := by
        rw [body, Level.slots_patterns]
      have total := h.taken
      simp only [List.map_cons, List.sum_cons, Group.taken] at total
      cases slot with
      | none =>
          have result := Except.ok.inj closed
          rw [← result]
          refine ⟨aroundStops.push (.plain level.pattern) stops own, othersAround,
            othersBelow, ?_⟩
          rw [Level.taken_push]
          simp only [Part.pattern, Option.isSome_none, Bool.false_eq_true, if_false] at total ⊢
          omega
      | some slot =>
          have result := Except.ok.inj closed
          rw [← result]
          refine ⟨aroundStops.push (.plain (.group slot level.pattern)) stops
            ⟨slotBelow slot rfl, own⟩, othersAround, othersBelow, ?_⟩
          rw [Level.taken_push]
          simp only [Part.pattern, Pattern.slots, Option.isSome_some, if_true] at total ⊢
          omega

theorem Stops.quantify (h : r.Stops c) {least : Nat} {bound : Option Nat}
    {preference : Preference} (backtracks : preference ≠ .most)
    (quantified : r.quantify least bound preference = .ok r') : r'.Stops c := by
  obtain ⟨⟨choices, parts⟩, groups, slots⟩ := r
  have level := h.level
  have total := h.taken
  cases parts with
  | nil => exact absurd quantified nofun
  | cons part rest =>
      cases part with
      | anchor p => exact absurd quantified nofun
      | repeated p => exact absurd quantified nofun
      | plain p =>
          have result := Except.ok.inj quantified
          rw [← result]
          obtain ⟨⟨stops, own⟩, others⟩ := List.forall_mem_cons.mp level.parts
          refine ⟨⟨level.choices, ?_⟩, h.around, h.below, total⟩
          exact List.forall_mem_cons.mpr ⟨⟨⟨backtracks, stops⟩, own⟩, others⟩

theorem Stops.step (h : r.Stops c) {token : Token × Nat} (stops : token.1.Stops c)
    (taken : r.step token = .ok r') : r'.Stops c := by
  obtain ⟨kind, position⟩ := token
  cases kind with
  | one cls =>
      rw [← Except.ok.inj taken]
      exact h.push (.plain (.one cls)) stops trivial rfl
  | start =>
      rw [← Except.ok.inj taken]
      exact h.push (.anchor .start) trivial trivial rfl
  | finish => exact stops.elim
  | opening captures =>
      rw [← Except.ok.inj taken]
      exact h.opening captures position
  | closing => exact h.close (mapError_eq_ok_iff.mp taken)
  | bar => exact stops.elim
  | quantifier least bound preference => exact h.quantify stops (mapError_eq_ok_iff.mp taken)
  | flawed flaw => exact stops.elim

theorem Stops.run (h : r.Stops c) {located : List (Token × Nat)}
    (stops : ∀ token ∈ located, token.1.Stops c) (taken : located.foldlM Reader.step r = .ok r') :
    r'.Stops c :=
  foldlM_invariant (Reader.Stops c) (fun token member _ _ before step =>
    before.step (stops token member) step) h taken

end Reader

/-- Whether a reader takes some tokens, wherever they stand, and is another one after them. -/
def Reader.Takes (r : Reader) (kinds : List Token) (r' : Reader) : Prop :=
  ∀ located : List (Token × Nat), located.map Prod.fst = kinds →
    located.foldlM Reader.step r = .ok r'

/-- Whether some tokens add parts to the current choice, wherever it stands, and take the slots from
one number to another. -/
def Adds (kinds : List Token) (slots : Nat) (parts : List Part) (slots' : Nat) : Prop :=
  ∀ (level : Level) (groups : List Group),
    Reader.Takes ⟨level, groups, slots⟩ kinds
      ⟨{ level with parts := parts.reverse ++ level.parts }, groups, slots'⟩

namespace Reader.Takes

variable {r r' r'' : Reader}

theorem nil : r.Takes [] r := by
  intro located nothing
  rw [List.map_eq_nil_iff.mp nothing]
  rfl

theorem one {token : Token} (h : ∀ position, r.step (token, position) = .ok r') :
    r.Takes [token] r' := by
  intro located same
  obtain ⟨⟨kind, position⟩, rest, rfl, rfl, nothing⟩ := List.map_eq_cons_iff.mp same
  rw [List.map_eq_nil_iff.mp nothing, List.foldlM_cons, h position]
  rfl

theorem append {first second : List Token} (h : r.Takes first r') (h' : r'.Takes second r'') :
    r.Takes (first ++ second) r'' := by
  intro located same
  obtain ⟨front, back, rfl, fronts, backs⟩ := List.map_eq_append_iff.mp same
  rw [List.foldlM_append, h front fronts]
  exact h' back backs

end Reader.Takes

namespace Adds

variable {n n' n'' : Nat}

theorem nil : Adds [] n [] n := fun _ _ => Reader.Takes.nil

theorem append {kinds kinds' : List Token} {parts parts' : List Part} (h : Adds kinds n parts n')
    (h' : Adds kinds' n' parts' n'') : Adds (kinds ++ kinds') n (parts ++ parts') n'' := by
  intro level groups
  rw [List.reverse_append, List.append_assoc]
  exact (h level groups).append (h' _ groups)

theorem one (cls : CharClass) : Adds [.one cls] n [.plain (.one cls)] n :=
  fun _ _ => Reader.Takes.one fun _ => rfl

theorem start : Adds [.start] n [.anchor .start] n := fun _ _ => Reader.Takes.one fun _ => rfl

theorem finish : Adds [.finish] n [.anchor .finish] n := fun _ _ => Reader.Takes.one fun _ => rfl

theorem quantified {kinds : List Token} {p : Pattern} (h : Adds kinds n [.plain p] n')
    (least : Nat) (bound : Option Nat) (preference : Preference) :
    Adds (kinds ++ [.quantifier least bound preference]) n
      [.repeated (.repeated least bound preference p)] n' := by
  intro level groups
  exact (h level groups).append (Reader.Takes.one fun _ => rfl)

theorem group {kinds : List Token} {parts : List Part} (captures : Bool)
    (h : Adds kinds (if captures then n + 1 else n) parts n') :
    Adds (.opening captures :: (kinds ++ [.closing])) n
      [.plain (if captures then .group n (seqAll (parts.map Part.pattern))
        else seqAll (parts.map Part.pattern))] n' := by
  intro level groups located same
  obtain ⟨⟨kind, opened⟩, rest, rfl, rfl, others⟩ := List.map_eq_cons_iff.mp same
  let g : Group := ⟨opened, if captures then some n else none, level⟩
  have body := h {} (g :: groups)
  have whole := Level.pattern_of_parts parts
  have closing : Reader.Takes ⟨⟨[], parts.reverse ++ []⟩, g :: groups, n'⟩ [.closing]
      ⟨level.push (.plain (if captures then .group n (seqAll (parts.map Part.pattern))
        else seqAll (parts.map Part.pattern))), groups, n'⟩ := by
    apply Reader.Takes.one
    intro position
    cases captures with
    | true =>
        rw [← whole]
        rfl
    | false =>
        rw [← whole]
        rfl
  rw [List.foldlM_cons]
  exact body.append closing rest others

end Adds

theorem parse_of_adds {source : Text} {read : List Token} (same : kinds source = read)
    {parts : List Part} {slots : Nat} (h : Adds read 0 parts slots) :
    parse source = .ok (seqAll (parts.map Part.pattern)) := by
  have run := h {} [] (tokens source) ((map_fst_tokens source).trans same)
  have whole := Level.pattern_of_parts parts
  rw [parse]
  change ((Except.bind ((tokens source).foldlM Reader.step ⟨{}, [], 0⟩) Reader.finish).mapError _) =
    _
  rw [run, ← whole]
  rfl

/-- A source that begins with an anchor is read in two parts. -/
theorem parse_anchored {source : Text} {first second : List Token}
    (read : kinds source = .start :: (first ++ second)) :
    ∃ front back : List (Token × Nat), front.map Prod.fst = first ∧
      back.map Prod.fst = second ∧ ∀ p, parse source = .ok p ↔
        ∃ r, front.foldlM Reader.step (Reader.push (.anchor .start) {}) = .ok r ∧
          (back.foldlM Reader.step r).bind Reader.finish = .ok p := by
  have located := (map_fst_tokens source).trans read
  obtain ⟨⟨_, position⟩, _, tokens_, rfl, located⟩ := List.map_eq_cons_iff.mp located
  obtain ⟨front, back, rfl, fronts, backs⟩ := List.map_eq_append_iff.mp located
  refine ⟨front, back, fronts, backs, fun p => ?_⟩
  have run : (tokens source).foldlM Reader.step {} =
      front.foldlM Reader.step (Reader.push (.anchor .start) {}) >>= back.foldlM Reader.step := by
    rw [tokens_, ← List.foldlM_append]
    rfl
  have joined := bind_assoc (front.foldlM Reader.step (Reader.push (.anchor .start) {}))
    (back.foldlM Reader.step) Reader.finish
  rw [parse, mapError_eq_ok_iff, run]
  exact (iff_of_eq (congrArg (· = Except.ok p) joined)).trans bind_eq_ok_iff

end FragmentRouting.Pattern
