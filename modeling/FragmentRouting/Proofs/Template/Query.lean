import FragmentRouting.Proofs.Pattern.Barrier
import FragmentRouting.Template.Narrowing
import Mathlib

/-!
The group for the query that ends a narrowed pattern. The parts before it stop at a question mark;
so the group covers the text from the first question mark on, and the other captures do not depend
on what stands there.
-/
namespace FragmentRouting.Template

open Pattern

def queryText (slot : Nat) : Pattern :=
  .group slot (.seq (.one (.single '?')) (.repeated 0 none .more (.one .exceptLineFeed)))

def queryPart (slot : Nat) : Pattern := .repeated 0 (some 1) .more (queryText slot)

def queryEnd (slot : Nat) : Pattern := seqAll [queryPart slot, .finish]

def narrowed (parts : List Pattern) : Pattern :=
  seqAll (parts ++ [queryPart (seqAll parts).slots, .finish])

theorem ways_narrowed (parts : List Pattern) (s : Place) :
    (narrowed parts).ways s =
      ((seqAll parts).ways s).flatMap (queryEnd (seqAll parts).slots).ways :=
  ways_seqAll_append parts _ s

theorem slots_narrowed (parts : List Pattern) :
    (narrowed parts).slots = (seqAll parts).slots + 1 := by
  have group (slot : Nat) : (queryPart slot).slots = 1 := rfl
  rw [narrowed, slots_seqAll, List.map_append, List.sum_append, ← slots_seqAll]
  apply congrArg ((seqAll parts).slots + ·)
  rw [List.map_cons, List.sum_cons, group]
  rfl

section Line

variable (f : Place → List Place)

/-- A run to the end of a line, if what follows it fails anywhere else. -/
theorem flatMap_line (fails : ∀ s, s.rest ≠ [] → '\n' ∉ s.rest → f s = []) (t : Text)
    (line : '\n' ∉ t) (position : Nat) (captures : List (Option Text)) (room : Nat)
    (enough : t.length ≤ room) :
    (loopWays true (Pattern.one .exceptLineFeed).ways room ⟨position, t, captures⟩).flatMap f =
      f ⟨position + t.length, [], captures⟩ := by
  induction t generalizing position room with
  | nil =>
      have only : loopWays true (Pattern.one .exceptLineFeed).ways room ⟨position, [], captures⟩ =
          [⟨position, [], captures⟩] := by
        cases room with
        | zero => rfl
        | succ room => rfl
      rw [only, List.flatMap_singleton]
      rfl
  | cons c t ih =>
      have differs : c ≠ '\n' := fun same => line (same ▸ List.mem_cons_self)
      have line' : '\n' ∉ t := fun member => line (List.mem_cons_of_mem _ member)
      have inside : CharClass.exceptLineFeed.contains c = true :=
        CharClass.other_contains_iff.mpr differs
      have here : f ⟨position, c :: t, captures⟩ = [] := fails _ (List.cons_ne_nil c t) line
      have round : (Pattern.one .exceptLineFeed).ways ⟨position, c :: t, captures⟩ =
          [⟨position + 1, t, captures⟩] := by
        rw [ways]
        exact if_pos inside
      cases room with
      | zero => exact absurd enough (Nat.not_succ_le_zero _)
      | succ room =>
          rw [loopWays, round, List.flatMap_singleton, if_pos (Nat.lt_succ_self position), ordered,
            if_pos rfl, List.flatMap_append, List.flatMap_singleton, here, List.append_nil,
            ih line' (position + 1) room (Nat.le_of_succ_le_succ enough), List.length_cons,
            Nat.add_assoc, Nat.add_comm 1]

end Line

theorem ways_finish_of_ne {s : Place} (shown : s.rest ≠ []) (line : s.rest ≠ ['\n']) :
    Pattern.finish.ways s = [] := by
  rw [ways, if_neg]
  rintro (nothing | feed)
  · exact shown nothing
  · exact line feed

theorem ways_queryPart (slot : Nat) (s : Place) :
    (queryPart slot).ways s = (queryText slot).ways s ++ [s] := by
  have once (w : Ways) : boundedWays true w 1 s = w s ++ [s] := by
    have same :
        ((w s).flatMap fun s' => if s.position < s'.position then [s'] else [s']) = w s := by
      simp only [ite_self, List.flatMap_singleton']
    exact congrArg (· ++ [s]) same
  rw [← once, queryPart, ways, exactWays, List.flatMap_singleton]
  · rfl
  · intro most
    cases most

theorem ways_queryEnd_plain (slot : Nat) {s : Place} (plain : s.rest.head? ≠ some '?') :
    (queryEnd slot).ways s = Pattern.finish.ways s := by
  have mark : (Pattern.one (.single '?')).ways s = [] := by
    rw [ways]
    split
    next => rfl
    next c rest text =>
        rw [text, List.head?_cons, ne_eq, Option.some.injEq] at plain
        exact if_neg fun inside => plain (CharClass.single_contains_iff.mp inside)
  have missed : (queryText slot).ways s = [] := by
    rw [queryText, ways, ways, mark, List.flatMap_nil, List.map_nil]
  rw [queryEnd, ways_seqAll_cons, ways_queryPart, missed, List.nil_append, List.flatMap_singleton]
  rfl

theorem ways_queryEnd_query (slot position : Nat) {query : Text} (line : '\n' ∉ query)
    (captures : List (Option Text)) :
    (queryEnd slot).ways ⟨position, '?' :: query, captures⟩ =
      [⟨position + 1 + query.length, [], captures.set slot (some ('?' :: query))⟩] := by
  let s : Place := ⟨position, '?' :: query, captures⟩
  let fill (s' : Place) : Place :=
    { s' with captures :=
        s'.captures.set slot (some (s.rest.take (s'.position - s.position))) }
  have mark : (Pattern.one (.single '?')).ways s = [⟨position + 1, query, captures⟩] := by
    rw [ways]
    exact if_pos (CharClass.single_contains_iff.mpr rfl)
  have fails (s' : Place) (shown : s'.rest ≠ []) (line : '\n' ∉ s'.rest) :
      Pattern.finish.ways (fill s') = [] := by
    apply ways_finish_of_ne
    · exact shown
    · intro feed
      exact line (feed ▸ List.mem_singleton_self '\n')
  have skipped : Pattern.finish.ways s = [] := by
    apply ways_finish_of_ne
    · exact List.cons_ne_nil _ _
    · intro feed
      exact absurd (List.cons.inj feed).1 (by decide)
  have covered : s.rest.take (position + 1 + query.length - position) = '?' :: query := by
    apply List.take_of_length_le
    rw [List.length_cons]
    omega
  have start : (Pattern.repeated 0 none .more (.one .exceptLineFeed)).ways
      ⟨position + 1, query, captures⟩ =
        loopWays true (Pattern.one .exceptLineFeed).ways query.length
          ⟨position + 1, query, captures⟩ := by
    rw [ways, exactWays, List.flatMap_singleton]
  have last : (seqAll [Pattern.finish]).ways = Pattern.finish.ways := rfl
  have group : ((queryText slot).ways s).flatMap Pattern.finish.ways =
      [⟨position + 1 + query.length, [], captures.set slot (some ('?' :: query))⟩] := by
    rw [queryText, ways, ways, mark, List.flatMap_singleton, start, List.flatMap_map,
      flatMap_line (fun s' => Pattern.finish.ways (fill s')) fails query line _ _ _ (Nat.le_refl _)]
    change Pattern.finish.ways ⟨position + 1 + query.length, [], captures.set slot
      (some (s.rest.take (position + 1 + query.length - position)))⟩ = _
    rw [covered, ways, if_pos (.inl rfl)]
  rw [queryEnd, ways_seqAll_cons, ways_queryPart, List.flatMap_append, List.flatMap_singleton, last,
    group, skipped, List.append_nil]

/-- What holds of the parts of a narrowed pattern if its template has no question mark. -/
structure Unqueried (parts : List Pattern) : Prop where
  stops : Stops '?' (seqAll parts)
  slots : SlotsIn (· < (seqAll parts).slots) (seqAll parts)

theorem set_last {α : Type} (l : List α) (n : Nat) (size : l.length = n + 1) (a : α) :
    l.set n a = l.dropLast ++ [a] := by
  obtain ⟨front, last, rfl⟩ := List.eq_nil_or_concat' l |>.resolve_left fun empty => by
    rw [empty] at size
    exact absurd size (Nat.succ_ne_zero n).symm
  have length : front.length = n := by
    rw [List.length_append] at size
    exact Nat.succ.inj size
  rw [List.dropLast_concat, List.set_append_right _ _ (Nat.le_of_eq length), length, Nat.sub_self]
  rfl

def atEnd (s : Place) : Bool := s.rest == [] || s.rest == ['\n']

/-- The first place in which the template itself leaves nothing. -/
def lastPlace? (parts : List Pattern) (path : Text) (ends : Place → Bool) : Option Place :=
  ((seqAll parts).ways (Place.ofText (narrowed parts).slots path)).find? ends

theorem rest_of_ways {p : Pattern} {slots : Nat} {path : Text} {s : Place}
    (member : s ∈ p.ways (Place.ofText slots path)) : ∃ passed, path = passed ++ s.rest := by
  obtain ⟨passed, text, _⟩ := ways_precedes p _ s member
  exact ⟨passed, text⟩

section Captures

variable {parts : List Pattern} {path : Text}

theorem lastPlace?_atEnd (ended : path.getLast? ≠ some '\n') :
    lastPlace? parts path atEnd = lastPlace? parts path (·.rest == []) := by
  apply List.find?_congr
  intro s member
  obtain ⟨passed, text⟩ := rest_of_ways member
  have feed : (s.rest == ['\n']) = false := by
    rw [beq_eq_false_iff_ne]
    intro feed
    apply ended
    rw [text, feed, List.getLast?_concat]
  rw [atEnd, feed, Bool.or_false]

theorem captures?_plain (unqueried : '?' ∉ path) :
    (narrowed parts).captures? path =
      (lastPlace? parts path atEnd).map Place.captures := by
  rw [captures?_eq_head?, ways_narrowed, lastPlace?]
  have ending (s : Place) (member : s ∈ (seqAll parts).ways
      (Place.ofText (narrowed parts).slots path)) :
      (queryEnd (seqAll parts).slots).ways s = if atEnd s then [s] else [] := by
    obtain ⟨passed, text⟩ := rest_of_ways member
    have plain : s.rest.head? ≠ some '?' := by
      intro mark
      apply unqueried
      rw [text]
      exact List.mem_append_right _ (List.mem_of_head? mark)
    rw [ways_queryEnd_plain _ plain, ways]
    simp only [atEnd, Bool.or_eq_true, beq_iff_eq]
  rw [List.flatMap_congr ending, head?_flatMap_ite, Option.map_map]
  rfl

/-- A path with a query matches where its template covers what stands before the query. -/
theorem captures?_query (stops : Stops '?' (seqAll parts)) (unqueried : '?' ∉ path) {query : Text}
    (line : '\n' ∉ query) :
    (narrowed parts).captures? (path ++ '?' :: query) =
      (lastPlace? parts path (·.rest == [])).map fun s =>
        s.captures.set (seqAll parts).slots (some ('?' :: query)) := by
  let start := Place.ofText (narrowed parts).slots path
  have before : Place.ofText (narrowed parts).slots (path ++ '?' :: query) =
      start.before ('?' :: query) := rfl
  rw [captures?_eq_head?, ways_narrowed, before, blind_ways stops query start, List.flatMap_map,
    lastPlace?]
  let reached (s : Place) : Place :=
    ⟨s.position + 1 + query.length, [],
      s.captures.set (seqAll parts).slots (some ('?' :: query))⟩
  have ending (s : Place) (member : s ∈ (seqAll parts).ways start) :
      (queryEnd (seqAll parts).slots).ways (s.before ('?' :: query)) =
        if s.rest == [] then [reached s] else [] := by
    obtain ⟨passed, text⟩ := rest_of_ways member
    obtain ⟨position, rest, captures⟩ := s
    cases rest with
    | nil => exact ways_queryEnd_query _ position line captures
    | cons c rest =>
        have plain : ((⟨position, c :: rest, captures⟩ : Place).before
            ('?' :: query)).rest.head? ≠ some '?' := by
          intro mark
          apply unqueried
          rw [text, ← Option.some.inj mark]
          exact List.mem_append_right _ List.mem_cons_self
        rw [ways_queryEnd_plain _ plain]
        apply ways_finish_of_ne
        · exact List.cons_ne_nil _ _
        · intro feed
          have nothing : rest ++ '?' :: query = [] := (List.cons.inj feed).2
          exact absurd nothing (List.append_ne_nil_of_right_ne_nil _ (List.cons_ne_nil _ _))
  rw [List.flatMap_congr ending, head?_flatMap_ite, Option.map_map]
  rfl

theorem captures_of_lastPlace? (unqueried : Unqueried parts) {ends : Place → Bool} {s : Place}
    (h : lastPlace? parts path ends = some s) :
    s.captures.length = (seqAll parts).slots + 1 ∧ s.captures.getLast? = some none := by
  have member := List.mem_of_find?_eq_some h
  have own : SlotsIn (fun used => used ≠ (seqAll parts).slots) (seqAll parts) :=
    unqueried.slots.mono fun slot below => Nat.ne_of_lt below
  have length := ways_length (seqAll parts) _ s member
  have untouched := ways_capture own _ s member
  rw [Place.ofText, List.length_replicate, slots_narrowed] at length
  rw [Place.ofText, slots_narrowed, List.getElem?_replicate_of_lt (Nat.lt_succ_self _)] at untouched
  refine ⟨length, ?_⟩
  rw [List.getLast?_eq_getElem?, length]
  exact untouched

theorem captures_plain (unqueried : Unqueried parts) (plain : '?' ∉ path)
    {captures : List (Option Text)} (h : (narrowed parts).captures? path = some captures) :
    captures.length = (seqAll parts).slots + 1 ∧ captures.getLast? = some none := by
  rw [captures?_plain plain, Option.map_eq_some_iff] at h
  obtain ⟨s, found, rfl⟩ := h
  exact captures_of_lastPlace? unqueried found

theorem captures_query (unqueried : Unqueried parts) (plain : '?' ∉ path) {query : Text}
    (line : '\n' ∉ query) {captures : List (Option Text)}
    (h : (narrowed parts).captures? (path ++ '?' :: query) = some captures) :
    captures.length = (seqAll parts).slots + 1 ∧
      captures.getLast? = some (some ('?' :: query)) := by
  rw [captures?_query unqueried.stops plain line, Option.map_eq_some_iff] at h
  obtain ⟨s, found, rfl⟩ := h
  have size := (captures_of_lastPlace? unqueried found).1
  rw [List.length_set]
  refine ⟨size, ?_⟩
  rw [set_last _ _ size, List.getLast?_concat]

/-- A query changes the last capture and nothing else. -/
theorem captures?_append_query (unqueried : Unqueried parts) (plain : '?' ∉ path)
    (ended : path.getLast? ≠ some '\n') {query : Text} (line : '\n' ∉ query) :
    (narrowed parts).captures? (path ++ '?' :: query) =
      ((narrowed parts).captures? path).map fun captures =>
        captures.dropLast ++ [some ('?' :: query)] := by
  rw [captures?_query unqueried.stops plain line, captures?_plain plain, lastPlace?_atEnd ended,
    Option.map_map]
  apply Option.map_congr
  intro s found
  exact set_last _ _ (captures_of_lastPlace? unqueried found).1 _

end Captures

end FragmentRouting.Template
