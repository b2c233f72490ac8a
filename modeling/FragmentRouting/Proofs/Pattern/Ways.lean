import FragmentRouting.Pattern.Match
import Mathlib

/-!
The ways in which a pattern matches from a place: the places they lead to, in the order in which
they are tried. To run a pattern with a continuation is to go on from the first of these places from
which the continuation succeeds, so that all that is to be said of a match can be said of lists.
-/
namespace FragmentRouting

theorem ClassItem.range_contains_iff {c d : Char} :
    (ClassItem.range c c).contains d = true ↔ d = c := by
  simp only [ClassItem.contains, Bool.and_eq_true, decide_eq_true_eq]
  constructor
  · intro both
    exact Char.le_antisymm both.2 both.1
  · intro same
    rw [same]
    exact ⟨Char.le_refl c, Char.le_refl c⟩

namespace CharClass

theorem single_contains_iff {c d : Char} : (single c).contains d = true ↔ d = c := by
  simp only [single, contains, List.any_cons, List.any_nil, Bool.or_false, bne_iff_ne, ne_eq,
    Bool.not_eq_false, ClassItem.range_contains_iff]

theorem other_contains_iff {c d : Char} :
    (CharClass.mk [.range c c] true).contains d = true ↔ d ≠ c := by
  simp only [contains, List.any_cons, List.any_nil, Bool.or_false, bne_iff_ne, ne_eq,
    ClassItem.range_contains_iff]

theorem others_contains_iff {b c d : Char} :
    (CharClass.mk [.range b b, .range c c] true).contains d = true ↔ d ≠ b ∧ d ≠ c := by
  simp only [contains, List.any_cons, List.any_nil, Bool.or_false, bne_iff_ne, ne_eq,
    Bool.or_eq_true, ClassItem.range_contains_iff, not_or]

end CharClass

end FragmentRouting

namespace FragmentRouting.Pattern

/-- The places to go on from, the preferred ones first. -/
abbrev Ways := Place → List Place

/-- Goes on from the first place that leads to success. -/
def search (w : Ways) : Continuation → Continuation := fun k s => (w s).findSome? k

/-- The places beyond a further round, and the place before it. -/
def ordered (moreFirst : Bool) (onward : List Place) (s : Place) : List Place :=
  if moreFirst then onward ++ [s] else s :: onward

def loopWays (moreFirst : Bool) (w : Ways) : Nat → Ways
  | 0, s => ordered moreFirst (w s) s
  | room + 1, s =>
    ordered moreFirst ((w s).flatMap fun s' =>
      if s.position < s'.position then loopWays moreFirst w room s' else [s']) s

def boundedWays (moreFirst : Bool) (w : Ways) : Nat → Ways
  | 0, s => [s]
  | bound + 1, s =>
    ordered moreFirst ((w s).flatMap fun s' =>
      if s.position < s'.position then boundedWays moreFirst w bound s' else [s']) s

def exactWays (w : Ways) : Nat → Ways
  | 0, s => [s]
  | count + 1, s => (w s).flatMap (exactWays w count)

/-- The places that matching a pattern leads to. -/
def ways : Pattern → Ways
  | .empty, s => [s]
  | .one cls, s =>
    match s.rest with
    | [] => []
    | c :: rest =>
      if cls.contains c then [{ s with position := s.position + 1, rest := rest }] else []
  | .start, s => if s.position = 0 then [s] else []
  | .finish, s => if s.rest = [] ∨ s.rest = ['\n'] then [s] else []
  | .seq p q, s => (p.ways s).flatMap q.ways
  | .choice p q, s => p.ways s ++ q.ways s
  | .group slot p, s =>
    (p.ways s).map fun s' =>
      let covered := s.rest.take (s'.position - s.position)
      { s' with captures := s'.captures.set slot (some covered) }
  | .repeated least bound .most p, s =>
    ((firstRounds (search p.ways) least s).map fun s' =>
      allRounds (search p.ways) ((bound.map (· - least)).getD (s'.rest.length + 1)) s').toList
  | .repeated least none .more p, s =>
    (exactWays p.ways least s).flatMap fun s' => loopWays true p.ways s'.rest.length s'
  | .repeated least none .fewer p, s =>
    (exactWays p.ways least s).flatMap fun s' => loopWays false p.ways s'.rest.length s'
  | .repeated least (some bound) preference p, s =>
    (exactWays p.ways least s).flatMap (boundedWays (preference == .more) p.ways (bound - least))

theorem findSome?_flatMap {α β γ : Type} (f : β → Option γ) (g : α → List β) (l : List α) :
    (l.flatMap g).findSome? f = l.findSome? fun a => (g a).findSome? f := by
  induction l with
  | nil => rfl
  | cons a l ih =>
      rw [List.flatMap_cons, List.findSome?_append, ih, List.findSome?_cons]
      cases (g a).findSome? f <;> rfl

theorem findSome?_ordered (moreFirst : Bool) (onward : List Place) (s : Place) (k : Continuation) :
    (ordered moreFirst onward s).findSome? k =
      if moreFirst then (onward.findSome? k).or (k s) else (k s).or (onward.findSome? k) := by
  cases moreFirst with
  | true => simp only [ordered, if_true, List.findSome?_append, List.findSome?_singleton]
  | false =>
      simp only [ordered, Bool.false_eq_true, if_false, List.findSome?_cons]
      cases k s <;> rfl

theorem findSome?_onward (w again : Ways) (k : Continuation) (s : Place) :
    ((w s).flatMap fun s' => if s.position < s'.position then again s' else [s']).findSome? k =
      search w (fun s' => if s.position < s'.position then (again s').findSome? k else k s') s := by
  rw [findSome?_flatMap]
  apply congrArg (List.findSome? · (w s))
  funext s'
  split
  · rfl
  · exact List.findSome?_singleton

theorem moreRounds_search (w : Ways) (k : Continuation) (room : Nat) (s : Place) :
    moreRounds (search w) k room s = (loopWays true w room s).findSome? k := by
  induction room generalizing s with
  | zero =>
      rw [moreRounds, loopWays, findSome?_ordered]
      rfl
  | succ room ih =>
      rw [moreRounds, loopWays, findSome?_ordered, findSome?_onward]
      simp only [ih, if_true]

theorem fewerRounds_search (w : Ways) (k : Continuation) (room : Nat) (s : Place) :
    fewerRounds (search w) k room s = (loopWays false w room s).findSome? k := by
  induction room generalizing s with
  | zero =>
      rw [fewerRounds, loopWays, findSome?_ordered]
      rfl
  | succ room ih =>
      rw [fewerRounds, loopWays, findSome?_ordered, findSome?_onward]
      simp only [ih, Bool.false_eq_true, if_false]

theorem boundedRounds_search (moreFirst : Bool) (w : Ways) (k : Continuation) (bound : Nat) :
    boundedRounds moreFirst (search w) k bound =
      fun s => (boundedWays moreFirst w bound s).findSome? k := by
  funext s
  induction bound generalizing s with
  | zero => rw [boundedRounds, boundedWays, List.findSome?_singleton]
  | succ bound ih =>
      rw [boundedRounds, boundedWays, findSome?_ordered, findSome?_onward]
      simp only [ih]

theorem exactRounds_search (w : Ways) (count : Nat) (k : Continuation) (s : Place) :
    exactRounds (search w) count k s = (exactWays w count s).findSome? k := by
  induction count generalizing s with
  | zero => rw [exactRounds, exactWays, List.findSome?_singleton]
  | succ count ih =>
      rw [exactRounds, exactWays, findSome?_flatMap, search]
      apply congrArg (List.findSome? · (w s))
      funext s'
      exact ih s'

theorem run_eq_search (p : Pattern) : p.run = search p.ways := by
  funext k s
  induction p generalizing k s with
  | empty => exact List.findSome?_singleton.symm
  | one cls =>
      simp only [run, search, ways]
      cases s.rest with
      | nil => rfl
      | cons c rest =>
          simp only
          split
          · exact List.findSome?_singleton.symm
          · rfl
  | start =>
      simp only [run, search, ways]
      split
      · exact List.findSome?_singleton.symm
      · rfl
  | finish =>
      simp only [run, search, ways]
      split
      · exact List.findSome?_singleton.symm
      · rfl
  | seq p q ihp ihq =>
      have second : q.run k = search q.ways k := funext fun s' => ihq k s'
      rw [run, ihp, second, search, search, ways, findSome?_flatMap]
      rfl
  | choice p q ihp ihq => rw [run, ihp, ihq, search, search, search, ways, List.findSome?_append]
  | group slot p ih =>
      rw [run, ih, search, search, ways, List.findSome?_map]
      rfl
  | repeated least bound preference p ih =>
      have body : p.run = search p.ways := funext fun k => funext fun s => ih k s
      cases preference with
      | most =>
          rw [run, search, ways, body]
          cases firstRounds (search p.ways) least s with
          | none => rfl
          | some s' => exact List.findSome?_singleton.symm
      | more =>
          cases bound with
          | none =>
              rw [run, search, ways, body, exactRounds_search, findSome?_flatMap]
              simp only [moreRounds_search]
          | some bound =>
              rw [run, search, ways, body, exactRounds_search, findSome?_flatMap,
                boundedRounds_search]
              all_goals nofun
      | fewer =>
          cases bound with
          | none =>
              rw [run, search, ways, body, exactRounds_search, findSome?_flatMap]
              simp only [fewerRounds_search]
          | some bound =>
              rw [run, search, ways, body, exactRounds_search, findSome?_flatMap,
                boundedRounds_search]
              all_goals nofun

/-- A text matches in the first way that leads anywhere. -/
theorem captures?_eq_head? (p : Pattern) (t : Text) :
    p.captures? t = (p.ways (Place.ofText p.slots t)).head?.map Place.captures := by
  rw [captures?, run_eq_search, search]
  cases p.ways (Place.ofText p.slots t) <;> rfl

theorem ways_seqAll_cons (p : Pattern) (rest : List Pattern) (s : Place) :
    (seqAll (p :: rest)).ways s = (p.ways s).flatMap (seqAll rest).ways := by
  cases rest with
  | nil => exact (List.flatMap_singleton' (p.ways s)).symm
  | cons q rest => rfl

theorem ways_seqAll_append (ps qs : List Pattern) (s : Place) :
    (seqAll (ps ++ qs)).ways s = ((seqAll ps).ways s).flatMap (seqAll qs).ways := by
  induction ps generalizing s with
  | nil => exact (List.flatMap_singleton _ s).symm
  | cons p ps ih =>
      rw [List.cons_append, ways_seqAll_cons, ways_seqAll_cons, List.flatMap_assoc]
      apply List.flatMap_congr
      intro s' _
      exact ih s'

theorem slots_seqAll (ps : List Pattern) : (seqAll ps).slots = (ps.map slots).sum := by
  induction ps with
  | nil => rfl
  | cons p ps ih =>
      rw [List.map_cons, List.sum_cons, ← ih]
      cases ps with
      | nil => rfl
      | cons q ps => rfl

theorem slots_seqAll_cons (p : Pattern) (ps : List Pattern) :
    (seqAll (p :: ps)).slots = p.slots + (seqAll ps).slots := by
  rw [slots_seqAll, slots_seqAll, List.map_cons, List.sum_cons]

theorem slots_start (ps : List Pattern) : (seqAll (.start :: ps)).slots = (seqAll ps).slots := by
  rw [slots_seqAll_cons]
  exact Nat.zero_add _

theorem ways_start (ps : List Pattern) (slots : Nat) (text : Text) :
    (seqAll (.start :: ps)).ways (Place.ofText slots text) =
      (seqAll ps).ways (Place.ofText slots text) := by
  have here : Pattern.start.ways (Place.ofText slots text) = [Place.ofText slots text] :=
    if_pos rfl
  rw [ways_seqAll_cons, here, List.flatMap_singleton]

theorem head?_flatMap_ite {α β : Type} (p : α → Bool) (g : α → β) (l : List α) :
    (l.flatMap fun a => if p a then [g a] else []).head? = (l.find? p).map g := by
  induction l with
  | nil => rfl
  | cons a l ih =>
      rw [List.flatMap_cons, List.find?_cons]
      cases p a with
      | true => rfl
      | false => exact ih

theorem slots_anchored (ps : List Pattern) :
    (seqAll (.start :: (ps ++ [.finish]))).slots = (seqAll ps).slots := by
  have finish : ([Pattern.finish].map slots).sum = 0 := rfl
  rw [slots_start, slots_seqAll, List.map_append, List.sum_append, ← slots_seqAll, finish]
  rfl

/-- Between two anchors a pattern matches in the first way that leaves nothing, or a line feed. -/
theorem captures?_anchored (ps : List Pattern) (text : Text) :
    (seqAll (.start :: (ps ++ [.finish]))).captures? text =
      (((seqAll ps).ways (Place.ofText (seqAll ps).slots text)).find? fun s =>
        s.rest = [] ∨ s.rest = ['\n']).map Place.captures := by
  have ends : (seqAll [Pattern.finish]).ways = fun s =>
      if decide (s.rest = [] ∨ s.rest = ['\n']) = true then [s] else [] := by
    funext s
    exact if_congr decide_eq_true_iff.symm rfl rfl
  rw [captures?_eq_head?, slots_anchored, ways_start, ways_seqAll_append, ends, head?_flatMap_ite,
    Option.map_id']

end FragmentRouting.Pattern
