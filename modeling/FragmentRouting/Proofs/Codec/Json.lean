import FragmentRouting.Codec.Layouts
import FragmentRouting.Proofs.Codec.Scheme
import FragmentRouting.Proofs.Json.RoundTrip

namespace FragmentRouting.Codec

open Json (Travels)
open OrderedMap (keys)

def Brings (nesting : Nat) (pair : Wire.Pair Text) (entry : Text × Value) : Prop :=
  pair.1 = entry.1 ∧ ∃ text, pair.2 = some text ∧ Json.read nesting text = .ok entry.2

theorem encodePairs_json (settings : Settings) (sink : Sink) {params : Params}
    (each : ∀ entry ∈ params, entry.2.kind ≠ .map ∧ Travels settings.nesting entry.2) :
    ∃ pairs : List (Wire.Pair Text),
      encodePairs ⟨Layout.json, settings, sink⟩ params.entries = .ok (pairs.map keyed) ∧
        List.Forall₂ (Brings settings.nesting) pairs params.untupled := by
  induction params with
  | nil => exact ⟨[], rfl, .nil⟩
  | cons entry params ih =>
      obtain ⟨⟨flat, travels⟩, each⟩ := List.forall_mem_cons.mp each
      obtain ⟨text, written, read⟩ := Json.read_write travels
      obtain ⟨pairs, encoded, brought⟩ := ih each
      have first : Layout.json.encode settings (.text entry.1) entry.2 =
          .ok [keyed (entry.1, some text)] := by
        simp only [Layout.json, written, ok_bind]
        rfl
      refine ⟨(entry.1, some text) :: pairs, ?_, .cons ⟨rfl, text, rfl, read⟩ brought⟩
      rw [encodePairs_cons _ entry.1 params flat, first, encoded]
      rfl

theorem foldlM_takeJson {nesting : Nat} {pairs : List (Wire.Pair Text)} {params before : Params}
    (brought : List.Forall₂ (Brings nesting) pairs params)
    (distinct : (keys (before ++ params)).Nodup) :
    pairs.foldlM (takeJson nesting) before = .ok (before ++ params) := by
  induction brought generalizing before with
  | nil =>
      rw [List.append_nil]
      rfl
  | @cons pair entry pairs params first others ih =>
      obtain ⟨key, text, value, read⟩ := first
      have fresh : entry.1 ∉ keys before := by
        rw [keys, List.map_append, List.map_cons] at distinct
        exact fun known => (List.nodup_append.mp distinct).2.2 _ known _ List.mem_cons_self rfl
      have taken : takeJson nesting before pair = .ok (before ++ [entry]) := by
        rw [takeJson, readJson, value, orEmpty, Option.getD_some, read, key,
          ← OrderedMap.insert_of_not_mem fresh]
        rfl
      rw [List.append_cons] at distinct ⊢
      rw [List.foldlM_cons, taken, ok_bind, ih distinct]

/-- Parameters of null, booleans, integers, texts and lists and tuples, which may hold maps, are
written without fault, and what is written is read as the same parameters in the same order, with
lists for the tuples. -/
theorem json_round_trip (settings : Settings) (sink : Sink) (utf8 : Wire.IsUtf8 settings.encoding)
    (params : Params) (distinct : (keys params).Nodup)
    (each : ∀ entry ∈ params, entry.2.kind ≠ .map ∧ Travels settings.nesting entry.2) :
    ∃ query, serialize ⟨Layout.json, settings, sink⟩ params.entries = .ok query ∧
      read (α := Char) ⟨Layout.json, settings, sink⟩ query = { params := params.untupled } := by
  obtain ⟨pairs, encoded, brought⟩ := encodePairs_json settings sink each
  rw [← Params.keys_untupled] at distinct
  have valued : List.Forall₂
      (fun pair entry => pair.2 ≠ none ∧ Brings settings.nesting pair entry)
      pairs params.untupled := by
    refine brought.imp fun pair entry brings => ⟨?_, brings⟩
    obtain ⟨_, text, value, _⟩ := brings
    rw [value]
    exact nofun
  have framed : ∀ pair ∈ pairs, pair.2 = none → pair.1 ≠ [] := fun pair member alone =>
    absurd alone (((List.forall₂_and_left _ _).mp valued).1 pair member)
  refine ⟨Text.joinWith ['&'] (pairs.map Wire.utf8Pair), ?_, ?_⟩
  · rw [serialize, encoded]
    exact Wire.writePairs_utf8 utf8 pairs
  · have parsed : parse (α := Char) ⟨Layout.json, settings, sink⟩
        (Text.joinWith ['&'] (pairs.map Wire.utf8Pair)) = .ok params.untupled := by
      rw [parse, split, Wire.readPairs_utf8 utf8 framed, ok_bind]
      exact foldlM_takeJson brought distinct
    rw [read, parsed]

def nestedEntries : Params := [
  ("a \"b\"".toList, .list [.bool true, .tuple []]),
  ([], .text "ü=&\n😀".toList)]

def nestedParams : Params := [
  ("n m".toList, .tuple [.null, nestedEntries.toValue, .text []]),
  ("k[]".toList, .int (-1000000000000000000000)),
  ([], .null)]

theorem json_round_trip_nested :
    Wire.IsUtf8 ({} : Settings).encoding ∧ (keys nestedParams).Nodup ∧
      (∀ entry ∈ nestedParams, entry.2.kind ≠ .map ∧ Travels ({} : Settings).nesting entry.2) ∧
      ∃ query, serialize ⟨Layout.json, {}, .logging⟩ nestedParams.entries = .ok query ∧
        read (α := Char) ⟨.json, {}, .logging⟩ query = { params := nestedParams.untupled } := by
  have listed : Travels 998 (.list [.bool true, .tuple []]) :=
    .list (List.forall_mem_cons.mpr ⟨.bool true,
      List.forall_mem_singleton.mpr (.tuple (List.forall_mem_nil _))⟩)
  have inner : Travels 999 nestedEntries.toValue :=
    .map (by decide) (List.forall_mem_cons.mpr ⟨listed, List.forall_mem_singleton.mpr (.text _)⟩)
  have outer : Travels 1000 (.tuple [.null, nestedEntries.toValue, .text []]) :=
    .tuple (List.forall_mem_cons.mpr ⟨.null,
      List.forall_mem_cons.mpr ⟨inner, List.forall_mem_singleton.mpr (.text _)⟩⟩)
  have small : (-1000000000000000000000 : Int).natAbs < 10 ^ digitLimit :=
    lt_of_lt_of_le (by decide) (Nat.pow_le_pow_right (by decide) (show 22 ≤ digitLimit by decide))
  have each : ∀ entry ∈ nestedParams,
      entry.2.kind ≠ .map ∧ Travels ({} : Settings).nesting entry.2 :=
    List.forall_mem_cons.mpr ⟨⟨nofun, outer⟩, List.forall_mem_cons.mpr ⟨⟨nofun, .int small⟩,
      List.forall_mem_singleton.mpr ⟨nofun, .null⟩⟩⟩
  have distinct : (keys nestedParams).Nodup := by decide
  exact ⟨isUtf8_default, distinct, each,
    json_round_trip {} .logging isUtf8_default nestedParams distinct each⟩

end FragmentRouting.Codec
