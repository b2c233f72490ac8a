import FragmentRouting.Proofs.Fragment.Build

/-!
Filling by name as filling in order. A map that gives up an entry with every token supplies the same
values as one that is looked up and left alone, if of the tokens that share a name only the first
looks; so the two ways of building a fragment agree, in their faults as well.
-/
namespace FragmentRouting.Fragment

open OrderedMap (Distinct)
open Template (Token tokens)

/-- The values that a map has for tokens. Of tokens with one name only the first has the entry; a
token without an entry has null. -/
def valuesByName (ts : List Token) (entries : List (Value × Value)) : List Value :=
  ts.mapIdx fun i t =>
    if t.name ∈ (ts.take i).map Token.name then .null
    else (OrderedMap.find? (.text t.name) entries).getD .null

/-- What is left of a map has no entry for the tokens. Its other entries are those of the map. -/
theorem find?_leftover (name : Text) (ts : List Token) (entries : List (Value × Value)) :
    OrderedMap.find? (.text name) (leftover ts entries) =
      if name ∈ ts.map Token.name then none else OrderedMap.find? (.text name) entries := by
  induction entries with
  | nil => exact (ite_self _).symm
  | cons entry entries ih =>
      rw [leftover] at ih ⊢
      by_cases same : (entry.1 == Value.text name) = true
      · have taken : (ts.any fun t => entry.1 == Value.text t.name) = true ↔
            name ∈ ts.map Token.name := by
          rw [Value.beq_text_iff.mp same, List.any_eq_true, List.mem_map]
          simp only [Value.beq_text_iff, Value.text.injEq]
          exact exists_congr fun t => and_congr_right' eq_comm
        rw [OrderedMap.find?, if_pos same, List.filter_cons]
        by_cases known : name ∈ ts.map Token.name
        · rw [if_pos known] at ih ⊢
          rw [taken.mpr known]
          exact ih
        · rw [if_neg known, Bool.eq_false_iff.mpr fun yes => known (taken.mp yes)]
          exact if_pos same
      · rw [OrderedMap.find?, if_neg same, List.filter_cons, ← ih]
        split
        next => exact if_neg same
        next => rfl

/-- A token finds what the tokens in front of it have left. -/
theorem getElem?_lookedUp (ts : List Token) {entries : List (Value × Value)}
    (distinct : Distinct entries) (i : Nat) :
    (lookedUp ts entries)[i]? = ts[i]?.map fun t =>
      (OrderedMap.find? (.text t.name) (leftover (ts.take i) entries)).getD .null := by
  induction ts generalizing entries i with
  | nil => rfl
  | cons t ts ih =>
      cases i with
      | zero =>
          rw [List.take_zero, leftover_nil]
          rfl
      | succ i =>
          have left := OrderedMap.distinct_erase (Value.exact_text t.name) distinct
          rw [lookedUp, List.getElem?_cons_succ, ih left, List.take_succ_cons,
            List.getElem?_cons_succ]
          simp only [leftover_cons t _ distinct]

theorem lookedUp_eq_valuesByName (ts : List Token) {entries : List (Value × Value)}
    (distinct : Distinct entries) : lookedUp ts entries = valuesByName ts entries := by
  apply List.ext_getElem?
  intro i
  rw [getElem?_lookedUp ts distinct, valuesByName, List.getElem?_mapIdx]
  refine congrArg (ts[i]?.map ·) (funext fun t => ?_)
  rw [find?_leftover]
  split
  next => rfl
  next => rfl

/-- A fragment that is built by name, or the fault that stops it, is that of the looked-up values in
order, with the entries for no token as the query. -/
theorem fromParams_eq_fromValues (codec : Codec) (template : Text) (entries : List (Value × Value))
    (distinct : Distinct entries) :
    fromParams codec template entries =
      fromValues codec template (valuesByName (tokens template) entries)
        (leftover (tokens template) entries) := by
  have values := lookedUp_eq_valuesByName (tokens template) distinct
  rw [tokens] at values ⊢
  rw [fromParams, fillByName_eq codec _ distinct, values, fromValues]
  cases fillInOrder codec (Template.pieces template)
      (valuesByName ((Template.pieces template).filterMap Template.Piece.token?) entries) with
  | error fault => rfl
  | ok path => rfl

def repeatedTemplate : Text := ":a/:ab/*a/:none".toList

def repeatedEntries : List (Value × Value) :=
  [(.text "q".toList, .bool true), (.text "ab".toList, .list [.int 1, .null]),
    (.text "a".toList, .text ":ab".toList)]

theorem fromParams_eq_fromValues_repeated :
    Distinct repeatedEntries ∧
      valuesByName (tokens repeatedTemplate) repeatedEntries =
        [.text ":ab".toList, .list [.int 1, .null], .null, .null] ∧
      leftover (tokens repeatedTemplate) repeatedEntries = [(.text "q".toList, .bool true)] ∧
      fromParams ⟨.bracket, {}, .logging⟩ repeatedTemplate repeatedEntries =
        .ok ":ab/1|//?q=true".toList := by
  have distinct : Distinct repeatedEntries := by
    unfold Distinct
    decide +kernel
  have listed : tokens repeatedTemplate = [⟨.named, "a".toList⟩, ⟨.named, "ab".toList⟩,
      ⟨.splat, "a".toList⟩, ⟨.named, "none".toList⟩] := by decide +kernel
  have values : valuesByName (tokens repeatedTemplate) repeatedEntries =
      [.text ":ab".toList, .list [.int 1, .null], .null, .null] := by
    rw [listed]
    rfl
  have left : leftover (tokens repeatedTemplate) repeatedEntries =
      [(.text "q".toList, .bool true)] := by
    rw [listed]
    rfl
  have inOrder : fromValues ⟨.bracket, {}, .logging⟩ repeatedTemplate
      [.text ":ab".toList, .list [.int 1, .null], .null, .null]
      [(.text "q".toList, .bool true)] = .ok ":ab/1|//?q=true".toList := by decide +kernel
  refine ⟨distinct, values, left, ?_⟩
  rw [fromParams_eq_fromValues _ _ _ distinct, values, left]
  exact inOrder

end FragmentRouting.Fragment
