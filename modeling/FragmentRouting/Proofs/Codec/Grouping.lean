import FragmentRouting.Proofs.Codec.Textual

/-!
Reading key by key. The pairs of a query make one map, whose entries change their shape on the way:
a text turns into a list, a list is overwritten and begun again. What stands under a key in the end
is a function of the pairs of that key alone, and the keys come in the order of their first pairs.
-/
namespace FragmentRouting.Codec

open OrderedMap (keys)

namespace Scheme

variable (scheme : Scheme)

def own (key : Text) (pairs : List (Wire.Pair Text)) : List (Wire.Pair Text) :=
  pairs.filter fun pair => scheme.key pair == key

theorem read_concat (pairs : List (Wire.Pair Text)) (pair : Wire.Pair Text) :
    scheme.read (pairs ++ [pair]) = scheme.take (scheme.read pairs) pair :=
  List.foldl_concat scheme.take [] pair pairs

theorem gather_concat (pairs : List (Wire.Pair Text)) (pair : Wire.Pair Text)
    (old : Option Value) :
    scheme.gather (pairs ++ [pair]) old = some (scheme.value pair (scheme.gather pairs old)) :=
  List.foldl_concat _ old pair pairs

variable {scheme}

theorem own_concat_same {key : Text} {pair : Wire.Pair Text} (same : scheme.key pair = key)
    (pairs : List (Wire.Pair Text)) :
    scheme.own key (pairs ++ [pair]) = scheme.own key pairs ++ [pair] := by
  rw [own, List.filter_append, List.filter_singleton, beq_iff_eq.mpr same]
  rfl

theorem own_concat_other {key : Text} {pair : Wire.Pair Text} (differs : scheme.key pair ≠ key)
    (pairs : List (Wire.Pair Text)) :
    scheme.own key (pairs ++ [pair]) = scheme.own key pairs := by
  rw [own, List.filter_append, List.filter_singleton, beq_eq_false_iff_ne.mpr differs]
  exact List.append_nil _

/-- A pair changes the entry of its own key, by what stood there, and no other. -/
theorem find?_read (key : Text) (pairs : List (Wire.Pair Text)) :
    OrderedMap.find? key (scheme.read pairs) = scheme.gather (scheme.own key pairs) none := by
  induction pairs using List.reverseRecOn with
  | nil => rfl
  | append_singleton pairs pair ih =>
      rw [read_concat, take]
      by_cases same : scheme.key pair = key
      · rw [own_concat_same same, gather_concat, ← ih, same, OrderedMap.find?_insert]
      · rw [own_concat_other same, ← ih, OrderedMap.find?_insert_of_ne (Ne.symm same)]

/-- A key comes in with its first pair and keeps its place. -/
theorem keys_read (pairs : List (Wire.Pair Text)) :
    keys (scheme.read pairs) = (pairs.map scheme.key).eraseDups := by
  induction pairs using List.reverseRecOn with
  | nil => rfl
  | append_singleton pairs pair ih =>
      rw [read_concat, take, List.map_append, List.map_singleton, List.eraseDups_append, ← ih]
      by_cases known : scheme.key pair ∈ keys (scheme.read pairs)
      · have again : [scheme.key pair].removeAll (pairs.map scheme.key) = [] := by
          rw [ih, List.mem_eraseDups] at known
          simp [List.removeAll, known]
        rw [OrderedMap.keys_insert_of_mem known, again]
        exact (List.append_nil _).symm
      · have first : [scheme.key pair].removeAll (pairs.map scheme.key) = [scheme.key pair] := by
          rw [ih, List.mem_eraseDups] at known
          simp [List.removeAll, known]
        rw [OrderedMap.insert_of_not_mem known, first]
        exact List.map_append

theorem nodup_keys_read (pairs : List (Wire.Pair Text)) : (keys (scheme.read pairs)).Nodup := by
  induction pairs using List.reverseRecOn with
  | nil => exact List.nodup_nil
  | append_singleton pairs pair ih =>
      rw [read_concat]
      exact OrderedMap.nodup_keys_insert ih _ _

theorem own_ne_nil {key : Text} {pairs : List (Wire.Pair Text)}
    (member : key ∈ keys (scheme.read pairs)) : scheme.own key pairs ≠ [] := by
  rw [keys_read, List.mem_eraseDups] at member
  obtain ⟨pair, listed, same⟩ := List.mem_map.mp member
  exact List.ne_nil_of_mem (List.mem_filter.mpr ⟨listed, beq_iff_eq.mpr same⟩)

end Scheme

/-- Of repeated keys a single value is a text, and more make a list. -/
def repeatedValue (own : List (Wire.Pair Text)) : Value :=
  match own.map fun pair => orEmpty pair.2 with
  | [t] => .text t
  | ts => .list (ts.map .text)

/-- The value of the last pair. A key that stands alone has an empty one. -/
def lastValue (own : List (Wire.Pair Text)) : Text := orEmpty (own.getLast?.bind Prod.snd)

/-- Of joined lists the last value counts, split if the delimiter is set and stands in it. -/
def joinedValue (delimiter : Text) (own : List (Wire.Pair Text)) : Value :=
  if delimiter ≠ [] ∧ delimiter <:+: lastValue own then
    .list ((Text.splitAtAll delimiter (lastValue own)).map .text)
  else .text (lastValue own)

def isSuffixed (pair : Wire.Pair Text) : Bool := listSuffix.isSuffixOf pair.1

/-- Of bracket suffixes the last pair decides. A plain one gives its value, a suffixed one the
values of all suffixed pairs behind the last plain one; a key that stands alone adds none. -/
def bracketValue (own : List (Wire.Pair Text)) : Value :=
  if own.getLast?.any isSuffixed then
    .list (((own.rtakeWhile isSuffixed).filterMap Prod.snd).map .text)
  else .text (lastValue own)

/-- A key without its suffix, if it has it. -/
def bareKey (key : Text) : Text := (unsuffixed? key).getD key

/-- The layouts of texts and lists of texts, each with the key under which a pair counts and with
what the pairs of one key make. -/
inductive Layout.Groups (settings : Settings) :
    Layout → (Text → Text) → (List (Wire.Pair Text) → Value) → Prop
  | standard : Groups settings .standard id repeatedValue
  | delimited (delimiter : Text) (set : settings.arrayDelimiter = .text delimiter) :
      Groups settings .delimited id (joinedValue delimiter)
  | bracket : Groups settings .bracket bareKey bracketValue

def ownPairs (base : Text → Text) (key : Text) (pairs : List (Wire.Pair Text)) :
    List (Wire.Pair Text) :=
  pairs.filter fun pair => base pair.1 == key

/-- The map that has every key in the place of its first pair, with what its own pairs make. -/
def grouped (base : Text → Text) (value : List (Wire.Pair Text) → Value)
    (pairs : List (Wire.Pair Text)) : Params :=
  (pairs.map fun pair => base pair.1).eraseDups.map fun key =>
    (key, value (ownPairs base key pairs))

theorem lastValue_concat (own : List (Wire.Pair Text)) (pair : Wire.Pair Text) :
    lastValue (own ++ [pair]) = orEmpty pair.2 := by
  rw [lastValue, List.getLast?_concat]
  rfl

namespace Scheme

theorem gather_standard {own : List (Wire.Pair Text)} (some_ : own ≠ []) :
    standard.gather own none = some (repeatedValue own) := by
  induction own using List.reverseRecOn with
  | nil => exact absurd rfl some_
  | append_singleton own pair ih =>
      rw [gather_concat]
      match own with
      | [] => rfl
      | [first] => rfl
      | first :: second :: rest =>
          rw [ih (List.cons_ne_nil _ _)]
          simp only [standard, repeatedValue, addRepeated, List.map_cons, List.cons_append,
            List.map_append, List.map_nil]

theorem gather_delimited (delimiter : Text) {own : List (Wire.Pair Text)} (some_ : own ≠ []) :
    (delimited delimiter).gather own none = some (joinedValue delimiter own) := by
  induction own using List.reverseRecOn with
  | nil => exact absurd rfl some_
  | append_singleton own pair _ =>
      rw [gather_concat, joinedValue, lastValue_concat]
      simp only [delimited, splitText, Bool.and_eq_true, Bool.not_eq_true',
        List.isEmpty_eq_false_iff, Text.occursIn_iff]

theorem listItems_bracketValue (own : List (Wire.Pair Text)) :
    listItems (some (bracketValue own)) =
      ((own.rtakeWhile isSuffixed).filterMap Prod.snd).map .text := by
  induction own using List.reverseRecOn with
  | nil => rfl
  | append_singleton own pair _ =>
      rw [bracketValue, List.getLast?_concat, Option.any_some, List.rtakeWhile_concat]
      split
      next => rfl
      next => rfl

theorem gather_bracket {own : List (Wire.Pair Text)} (some_ : own ≠ []) :
    bracket.gather own none = some (bracketValue own) := by
  induction own using List.reverseRecOn with
  | nil => exact absurd rfl some_
  | append_singleton own pair ih =>
      have items : listItems (bracket.gather own none) =
          ((own.rtakeWhile isSuffixed).filterMap Prod.snd).map .text := by
        cases own with
        | nil => rfl
        | cons first rest => rw [ih (List.cons_ne_nil _ _), listItems_bracketValue]
      rcases pair with ⟨key, value⟩
      rw [gather_concat, bracketValue, List.getLast?_concat, Option.any_some, lastValue_concat]
      by_cases suffix : listSuffix <:+ key
      · obtain ⟨front, rfl⟩ := suffix
        have suffixed : isSuffixed (front ++ listSuffix, value) = true :=
          List.isSuffixOf_iff_suffix.mpr (List.suffix_append front listSuffix)
        rw [bracket_value_append, items, if_pos suffixed, List.rtakeWhile_concat_pos _ _ _ suffixed]
        cases value with
        | none => simp
        | some t => simp
      · have plain : ¬ isSuffixed (key, value) = true := by
          rw [isSuffixed, List.isSuffixOf_iff_suffix]
          exact suffix
        rw [bracket_value_plain suffix, if_neg plain]

variable {scheme : Scheme}

/-- What holds of the pairs of one key holds of all pairs, key by key. -/
theorem read_eq_map {value : List (Wire.Pair Text) → Value}
    (closed : ∀ own, own ≠ [] → scheme.gather own none = some (value own))
    (pairs : List (Wire.Pair Text)) :
    scheme.read pairs =
      (pairs.map scheme.key).eraseDups.map fun key => (key, value (scheme.own key pairs)) := by
  rw [← keys_read]
  apply OrderedMap.eq_map_keys (nodup_keys_read pairs)
  intro key member
  rw [find?_read, closed _ (own_ne_nil member)]

end Scheme

theorem Layout.Groups.exists_scheme {settings : Settings} {layout : Layout} {base : Text → Text}
    {value : List (Wire.Pair Text) → Value} (groups : layout.Groups settings base value) :
    ∃ scheme : Scheme, scheme.Describes settings layout ∧
      scheme.key = (fun pair => base pair.1) ∧
      ∀ own, own ≠ [] → scheme.gather own none = some (value own) := by
  cases groups with
  | standard =>
      exact ⟨_, Scheme.standard_describes settings, rfl, fun _ => Scheme.gather_standard⟩
  | delimited delimiter set =>
      exact ⟨_, Scheme.delimited_describes set, rfl, fun _ => Scheme.gather_delimited delimiter⟩
  | bracket =>
      exact ⟨_, Scheme.bracket_describes settings, rfl, fun _ => Scheme.gather_bracket⟩

/-- Pairs are read as the map that has every key in the place of its first pair, with what its own
pairs make. What stands under a key is the same for all pairs among which those of the key are the
same, whatever other pairs there are and wherever they stand. -/
theorem decode_by_key (settings : Settings) (layout : Layout) (base : Text → Text)
    (value : List (Wire.Pair Text) → Value) (groups : layout.Groups settings base value)
    (pairs : List (Wire.Pair Text)) :
    layout.decode settings pairs = .ok (grouped base value pairs) ∧
      ∀ key others, ownPairs base key others = ownPairs base key pairs →
        ∃ decoded, layout.decode settings others = .ok decoded ∧
          OrderedMap.find? key decoded = OrderedMap.find? key (grouped base value pairs) := by
  obtain ⟨scheme, describes, base_, closed⟩ := groups.exists_scheme
  have own (key : Text) (pairs : List (Wire.Pair Text)) :
      scheme.own key pairs = ownPairs base key pairs := by
    rw [Scheme.own, base_]
    rfl
  have read : scheme.read pairs = grouped base value pairs := by
    rw [Scheme.read_eq_map closed, base_]
    exact List.map_congr_left fun key _ => by rw [own]
  refine ⟨(describes.decode pairs).trans (congrArg _ read), fun key others same => ?_⟩
  refine ⟨scheme.read others, describes.decode others, ?_⟩
  rw [← read, Scheme.find?_read, Scheme.find?_read, own, own, same]

/-- A key whose list is overwritten by a text and begun again, between the pairs of another. -/
def turningPairs : List (Wire.Pair Text) := [
  ("a[]".toList, some "0".toList),
  ("b".toList, none),
  ("a".toList, some "1".toList),
  ("a[]".toList, none),
  ("b".toList, some "2".toList),
  ("a[]".toList, some "3".toList)]

def turningPairsLast : List (Wire.Pair Text) :=
  ("a[][]".toList, none) :: ownPairs bareKey "a".toList turningPairs

theorem decode_by_key_turning :
    (.bracket : Layout).Groups {} bareKey bracketValue ∧
      ownPairs bareKey "a".toList turningPairsLast =
        ownPairs bareKey "a".toList turningPairs ∧
      (.bracket : Layout).decode {} turningPairs =
        .ok [("a".toList, .list [.text "3".toList]), ("b".toList, .text "2".toList)] ∧
      ∃ decoded, (.bracket : Layout).decode {} turningPairsLast = .ok decoded ∧
        OrderedMap.find? "a".toList decoded = some (.list [.text "3".toList]) := by
  have same : ownPairs bareKey "a".toList turningPairsLast =
      ownPairs bareKey "a".toList turningPairs := by decide +kernel
  have map : grouped bareKey bracketValue turningPairs =
      [("a".toList, .list [.text "3".toList]), ("b".toList, .text "2".toList)] := by rfl
  obtain ⟨decoded, kept⟩ := decode_by_key {} .bracket bareKey bracketValue .bracket turningPairs
  rw [map] at decoded kept
  exact ⟨.bracket, same, decoded, kept "a".toList turningPairsLast same⟩

end FragmentRouting.Codec
