import FragmentRouting.Codec.Layouts
import FragmentRouting.Proofs.Codec.Scheme

/-!
Bracket suffixes, there and back. A list goes under its key with the suffix and comes back as a
list, however few items it has; a text comes back as a text unless its own key ends in the suffix.
That is the only way in which parameters are lost: what is read is what the query carries exactly
when no text stands under such a key.
-/
namespace FragmentRouting.Codec

theorem unsuffixed?_append (key : Text) : unsuffixed? (key ++ listSuffix) = some key := by
  unfold unsuffixed?
  rw [if_pos (List.isSuffixOf_iff_suffix.mpr (List.suffix_append key listSuffix)),
    List.length_append, Nat.add_sub_cancel, List.take_left]

theorem unsuffixed?_eq_none_iff (key : Text) : unsuffixed? key = none ↔ ¬ listSuffix <:+ key := by
  unfold unsuffixed?
  split
  · next h => simp [List.isSuffixOf_iff_suffix.mp h]
  · next h => simpa [List.isSuffixOf_iff_suffix] using h

/-- The pairs of a parameter as it is carried. -/
def bracketPairs : Text × Carried → List (Wire.Pair Text)
  | (key, .text t) => [(key, some t)]
  | (key, .list []) => [(key ++ listSuffix, none)]
  | (key, .list (t :: ts)) => (t :: ts).map fun t => (key ++ listSuffix, some t)

theorem encodeBracket_carried (key : Text) {v : Value} {w : Carried} (h : v.carried = .ok w) :
    encodeBracket (.text key) v = .ok ((bracketPairs (key, w)).map keyed) := by
  unfold encodeBracket
  obtain ⟨t, scalar, formatted, rfl⟩ | ⟨items, ts, multi, formatted, rfl⟩ := Value.carried_cases h
  · simp only [scalar, formatted]
    rfl
  · cases items with
    | nil =>
        cases formatted
        simp only [multi]
        rfl
    | cons item items =>
        obtain ⟨t, rest, -, -, rfl⟩ := List.forall₂_cons_left_iff.mp (mapM_eq_ok_iff.mp formatted)
        simp only [multi, suffixed, formatted, ok_bind, bracketPairs, List.map_map]
        rfl

theorem bracketPairs_framed {entry : Text × Carried} {pair : Wire.Pair Text}
    (h : pair ∈ bracketPairs entry) : pair.2 = none → pair.1 ≠ [] := by
  intro alone
  rcases entry with ⟨key, t | _ | ⟨t, ts⟩⟩
  · rw [List.mem_singleton.mp h] at alone
    cases alone
  · rw [List.mem_singleton.mp h]
    simp [listSuffix]
  · obtain ⟨_, -, rfl⟩ := List.mem_map.mp h
    cases alone

open OrderedMap (keys)

def Scheme.bracket : Scheme where
  pairs := bracketPairs
  key pair := (unsuffixed? pair.1).getD pair.1
  value pair old := match unsuffixed? pair.1 with
    | some _ => .list (listItems old ++ (pair.2.map .text).toList)
    | none => .text (orEmpty pair.2)

namespace Scheme

theorem takeBracket_eq : takeBracket = bracket.take := by
  funext params pair
  simp only [takeBracket, take, bracket]
  cases unsuffixed? pair.1 with
  | none => rfl
  | some key => cases pair.2 <;> rfl

theorem foldl_takeBracket (pairs : List (Wire.Pair Text)) :
    pairs.foldl takeBracket [] = bracket.read pairs := by
  rw [takeBracket_eq]
  rfl

theorem bracket_key_append (key : Text) (value : Option Text) :
    bracket.key (key ++ listSuffix, value) = key := by
  simp only [bracket, unsuffixed?_append, Option.getD_some]

theorem bracket_value_append (key : Text) (value : Option Text) (old : Option Value) :
    bracket.value (key ++ listSuffix, value) old =
      .list (listItems old ++ (value.map .text).toList) := by
  simp only [bracket, unsuffixed?_append]

theorem bracket_key_plain {key : Text} (plain : ¬ listSuffix <:+ key) (value : Option Text) :
    bracket.key (key, value) = key := by
  simp only [bracket, (unsuffixed?_eq_none_iff key).mpr plain, Option.getD_none]

theorem bracket_value_plain {key : Text} (plain : ¬ listSuffix <:+ key) (value : Option Text)
    (old : Option Value) : bracket.value (key, value) old = .text (orEmpty value) := by
  simp only [bracket, (unsuffixed?_eq_none_iff key).mpr plain]

theorem gather_bracket_items (key : Text) (items : List Value) (ts : List Text) :
    bracket.gather (ts.map fun t => (key ++ listSuffix, some t)) (some (.list items)) =
      some (.list (items ++ ts.map .text)) := by
  induction ts generalizing items with
  | nil => exact congrArg (fun items => some (Value.list items)) (List.append_nil items).symm
  | cons t ts ih =>
      rw [List.map_cons, gather, List.foldl_cons, bracket_value_append]
      rw [List.map_cons, List.append_cons items]
      exact ih (items ++ [.text t])

theorem restores_bracket_list (key : Text) (ts : List Text) :
    bracket.Restores (key, .list ts) := by
  cases ts with
  | nil =>
      have value := bracket_value_append key none none
      refine ⟨fun pair member => ?_, congrArg some value⟩
      rw [List.mem_singleton.mp member]
      exact bracket_key_append key none
  | cons t ts =>
      constructor
      · intro pair member
        obtain ⟨u, -, rfl⟩ := List.mem_map.mp member
        exact bracket_key_append key (some u)
      · have first := bracket_value_append key (some t) none
        refine Eq.trans ?_ (gather_bracket_items key [.text t] ts)
        exact congrArg (bracket.gather _) (congrArg some first)

/-- A text comes back unless its key ends in the suffix. -/
theorem restores_bracket_text_iff {key t : Text} :
    bracket.Restores (key, .text t) ↔ ¬ listSuffix <:+ key := by
  constructor
  · rintro restores ⟨front, rfl⟩
    have added := congrArg some (bracket_value_append front (some t) none)
    cases restores.value.symm.trans added
  · intro plain
    refine ⟨fun pair member => ?_, congrArg some (bracket_value_plain plain (some t) none)⟩
    rw [List.mem_singleton.mp member]
    exact bracket_key_plain plain (some t)

theorem listItems_of_carried (w : Carried) :
    ∃ ts : List Text, listItems (some w.value) = ts.map .text := by
  cases w with
  | text t => exact ⟨[], rfl⟩
  | list ts => exact ⟨ts, rfl⟩

theorem bracket_closed (pair : Wire.Pair Text) (old : Option Value)
    (canonical : ∀ v, old = some v → bracket.Canonical (bracket.key pair) v) :
    bracket.Canonical (bracket.key pair) (bracket.value pair old) := by
  rcases pair with ⟨key, value⟩
  by_cases suffix : listSuffix <:+ key
  · obtain ⟨front, rfl⟩ := suffix
    rw [bracket_key_append] at canonical ⊢
    rw [bracket_value_append]
    have items : ∃ ts : List Text, listItems old = ts.map .text := by
      cases old with
      | none => exact ⟨[], rfl⟩
      | some v =>
          obtain ⟨w, rfl, -⟩ := canonical v rfl
          exact listItems_of_carried w
    obtain ⟨ts, items⟩ := items
    refine ⟨.list (ts ++ value.toList), ?_, restores_bracket_list front _⟩
    rw [items, Carried.value, List.map_append]
    cases value <;> rfl
  · rw [bracket_key_plain suffix, bracket_value_plain suffix]
    exact ⟨.text (orEmpty value), rfl, restores_bracket_text_iff.mpr suffix⟩

theorem bracket_describes (settings : Settings) : bracket.Describes settings .bracket where
  encode key _ _ := encodeBracket_carried key
  framed _ _ := bracketPairs_framed
  decode pairs := congrArg Except.ok (foldl_takeBracket pairs)
  closed := bracket_closed

end Scheme

theorem serialize_bracket {settings : Settings} (sink : Sink)
    (utf8 : Wire.IsUtf8 settings.encoding) {params : Params}
    (flat : ∀ entry ∈ params, entry.2.kind ≠ .map) {carried : OrderedMap Text Carried}
    (h : params.carried = .ok carried) :
    serialize ⟨Layout.bracket, settings, sink⟩ params.entries =
      .ok (Text.joinWith ['&'] ((carried.flatMap bracketPairs).map Wire.utf8Pair)) :=
  (Scheme.bracket_describes settings).serialize sink utf8 flat h

theorem parse_bracket {settings : Settings} (sink : Sink) (utf8 : Wire.IsUtf8 settings.encoding)
    {pairs : List (Wire.Pair Text)} (framed : ∀ pair ∈ pairs, pair.2 = none → pair.1 ≠ []) :
    parse (α := Char) ⟨.bracket, settings, sink⟩
        (Text.joinWith ['&'] (pairs.map Wire.utf8Pair)) =
      .ok (pairs.foldl takeBracket []) := by
  simp only [parse, split, Wire.readPairs_utf8 utf8 framed, ok_bind]
  rfl

theorem foldl_takeBracket_eq_iff {params : Params} {carried : OrderedMap Text Carried}
    (h : params.carried = .ok carried) (distinct : (keys params).Nodup) :
    (carried.flatMap bracketPairs).foldl takeBracket [] = Params.ofCarried carried ↔
      ∀ key v, (key, v) ∈ params → v.items? = none → ¬ listSuffix <:+ key := by
  rw [← Params.keys_carried h] at distinct
  rw [Scheme.foldl_takeBracket]
  refine ((Scheme.bracket_describes {}).read_pairs_iff distinct).trans ?_
  constructor
  · intro restored key v hv scalar
    obtain ⟨t, ht⟩ := (Params.text_carried_iff h key).mpr ⟨v, hv, scalar⟩
    exact Scheme.restores_bracket_text_iff.mp (restored _ ht)
  · rintro plain ⟨key, t | ts⟩ member
    · obtain ⟨v, hv, scalar⟩ := (Params.text_carried_iff h key).mp ⟨t, member⟩
      exact Scheme.restores_bracket_text_iff.mpr (plain key v hv scalar)
    · exact Scheme.restores_bracket_list key ts

theorem exists_carried_of_encodeBracket {key v : Value} {pairs : List (Wire.Pair Value)}
    (h : encodeBracket key v = .ok pairs) : ∃ w, v.carried = .ok w := by
  unfold encodeBracket at h
  unfold Value.carried
  split at h
  next multi =>
      rw [multi]
      exact ⟨.list [], rfl⟩
  next item rest multi =>
      obtain ⟨key, _, h⟩ := bind_eq_ok_iff.mp h
      obtain ⟨ts, formatted, _⟩ := bind_eq_ok_iff.mp h
      rw [multi]
      exact ⟨.list ts, map_eq_ok_iff.mpr ⟨ts, formatted, rfl⟩⟩
  next scalar =>
      obtain ⟨t, formatted, _⟩ := bind_eq_ok_iff.mp h
      rw [scalar]
      exact ⟨.text t, map_eq_ok_iff.mpr ⟨t, formatted, rfl⟩⟩

/-- A query that could be written is read as what it carries, if no text stands under a key that
ends in the suffix. -/
theorem parse_of_serialize_bracket {settings : Settings} {sink : Sink}
    (utf8 : Wire.IsUtf8 settings.encoding) {params : Params} (distinct : (keys params).Nodup)
    (plain : ∀ key v, (key, v) ∈ params → v.items? = none → ¬ listSuffix <:+ key) {query : Text}
    (h : serialize ⟨Layout.bracket, settings, sink⟩ params.entries = .ok query) :
    ∃ carried, params.carried = .ok carried ∧
      parse (α := Char) ⟨.bracket, settings, sink⟩ query = .ok (Params.ofCarried carried) := by
  obtain ⟨pairs, encoded, _⟩ := bind_eq_ok_iff.mp h
  have written := entry_of_encodePairs encoded
  obtain ⟨carried, formatted⟩ : ∃ carried, params.carried = .ok carried := by
    apply exists_mapM_eq_ok_iff.mpr
    intro entry member
    obtain ⟨_, _, same⟩ := written entry member
    obtain ⟨w, hw⟩ := exists_carried_of_encodeBracket same
    exact ⟨(entry.1, w), map_eq_ok_iff.mpr ⟨w, hw, rfl⟩⟩
  have flat : ∀ entry ∈ params, entry.2.kind ≠ .map := fun entry member => (written entry member).1
  have same := Except.ok.inj (h.symm.trans (serialize_bracket sink utf8 flat formatted))
  have restored := (foldl_takeBracket_eq_iff formatted distinct).mpr plain
  refine ⟨carried, formatted, ?_⟩
  rw [same, ← restored, Scheme.foldl_takeBracket]
  exact (Scheme.bracket_describes settings).parse sink utf8 carried

/-- Parameters whose values or items have texts are written and read without fault. What is read is
what the query carries of them if and only if no value other than a list or a tuple stands under a
key that ends in the suffix. -/
theorem bracket_round_trip (settings : Settings) (sink : Sink)
    (utf8 : Wire.IsUtf8 settings.encoding) (params : Params) (distinct : (keys params).Nodup)
    (flat : ∀ entry ∈ params, entry.2.kind ≠ .map) (carried : OrderedMap Text Carried)
    (formatted : params.carried = .ok carried) :
    ∃ query decoded,
      serialize ⟨Layout.bracket, settings, sink⟩ params.entries = .ok query ∧
      parse (α := Char) ⟨Layout.bracket, settings, sink⟩ query = .ok decoded ∧
      (decoded = Params.ofCarried carried ↔
        ∀ key v, (key, v) ∈ params → v.items? = none → ¬ listSuffix <:+ key) := by
  have framed : ∀ pair ∈ carried.flatMap bracketPairs, pair.2 = none → pair.1 ≠ [] := by
    intro pair hpair
    obtain ⟨entry, -, hpair⟩ := List.mem_flatMap.mp hpair
    exact bracketPairs_framed hpair
  exact ⟨_, _, serialize_bracket sink utf8 flat formatted, parse_bracket sink utf8 framed,
    foldl_takeBracket_eq_iff formatted distinct⟩

/-- A text with separators in it, a list under a key that ends in the suffix, and the empty key. -/
def mixedParams : Params := [
  ("a b".toList, .text "ü=&".toList),
  ("k".toList, .tuple [.null, .bool true, .int (-5)]),
  ("k[]".toList, .list []),
  ([], .list [.text []])]

def mixedCarried : OrderedMap Text Carried := [
  ("a b".toList, .text "ü=&".toList),
  ("k".toList, .list [[], "true".toList, "-5".toList]),
  ("k[]".toList, .list []),
  ([], .list [[]])]

theorem bracket_round_trip_mixed :
    Wire.IsUtf8 ({} : Settings).encoding ∧ (keys mixedParams).Nodup ∧
      (∀ entry ∈ mixedParams, entry.2.kind ≠ .map) ∧ mixedParams.carried = .ok mixedCarried ∧
      ∃ query decoded,
        serialize ⟨Layout.bracket, {}, .logging⟩ mixedParams.entries = .ok query ∧
        parse (α := Char) ⟨Layout.bracket, {}, .logging⟩ query = .ok decoded ∧
        (decoded = Params.ofCarried mixedCarried ↔
          ∀ key v, (key, v) ∈ mixedParams → v.items? = none → ¬ listSuffix <:+ key) := by
  have distinct : (keys mixedParams).Nodup := by decide
  have flat : ∀ entry ∈ mixedParams, entry.2.kind ≠ .map := by decide
  have formatted : mixedParams.carried = .ok mixedCarried := by decide +kernel
  exact ⟨isUtf8_default, distinct, flat, formatted,
    bracket_round_trip {} .logging isUtf8_default mixedParams distinct flat mixedCarried formatted⟩

end FragmentRouting.Codec
