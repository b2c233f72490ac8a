import FragmentRouting.Proofs.Codec.Bracket
import FragmentRouting.Proofs.Text.Search
import FragmentRouting.Proofs.Wire.Reading

namespace FragmentRouting.Codec

namespace Scheme

def standard : Scheme where
  pairs
    | (key, .text t) => [(key, some t)]
    | (key, .list ts) => ts.map fun t => (key, some t)
  key := Prod.fst
  value pair := addRepeated (orEmpty pair.2)

theorem encodeRepeated_carried (key : Text) {v : Value} {w : Carried} (h : v.carried = .ok w) :
    encodeRepeated (.text key) v = .ok ((standard.pairs (key, w)).map keyed) := by
  unfold encodeRepeated
  obtain ⟨t, scalar, formatted, rfl⟩ | ⟨items, ts, multi, formatted, rfl⟩ := Value.carried_cases h
  · simp only [scalar, formatted]
    rfl
  · simp only [multi, formatted, ok_bind, standard, List.map_map]
    rfl

theorem standard_pairs {entry : Text × Carried} {pair : Wire.Pair Text}
    (h : pair ∈ standard.pairs entry) : pair.1 = entry.1 ∧ pair.2 ≠ none := by
  rcases entry with ⟨key, t | ts⟩
  · rw [List.mem_singleton.mp h]
    exact ⟨rfl, nofun⟩
  · obtain ⟨t, -, rfl⟩ := List.mem_map.mp h
    exact ⟨rfl, nofun⟩

theorem restores_standard_concat {key t : Text} {ts : List Text}
    (restores : standard.Restores (key, .list ts)) :
    standard.Restores (key, .list (ts ++ [t])) where
  key pair member := (standard_pairs member).1
  value := by
    have before : standard.gather (ts.map fun t => (key, some t)) none =
        some (.list (ts.map .text)) := restores.value
    have after : (ts ++ [t]).map Value.text = ts.map .text ++ [.text t] := List.map_append
    simp only [standard, gather, List.map_append, List.foldl_append] at before ⊢
    rw [before, Carried.value, after]
    rfl

theorem standard_closed (pair : Wire.Pair Text) (old : Option Value)
    (canonical : ∀ v, old = some v → standard.Canonical (standard.key pair) v) :
    standard.Canonical (standard.key pair) (standard.value pair old) := by
  rcases pair with ⟨key, value⟩
  cases old with
  | none =>
      refine ⟨.text (orEmpty value), rfl, fun pair member => (standard_pairs member).1, rfl⟩
  | some v =>
      obtain ⟨t | ts, rfl, restores⟩ := canonical v rfl
      · exact ⟨.list [t, orEmpty value], rfl, fun pair member => (standard_pairs member).1, rfl⟩
      · refine ⟨.list (ts ++ [orEmpty value]), ?_, restores_standard_concat restores⟩
        exact congrArg Value.list List.map_append

theorem standard_describes (settings : Settings) : standard.Describes settings .standard where
  encode key _ _ := encodeRepeated_carried key
  framed _ _ member alone := absurd alone (standard_pairs member).2
  decode _ := rfl
  closed := standard_closed

/-- A value split at a delimiter that is a text. -/
def splitText (delimiter value : Text) : Value :=
  if !delimiter.isEmpty && Text.occursIn delimiter value then
    .list ((Text.splitAtAll delimiter value).map .text)
  else .text value

theorem splitJoined_text (delimiter value : Text) :
    splitJoined (.text delimiter) value = .ok (splitText delimiter value) :=
  (apply_ite Except.ok _ _ _).symm

def delimited (delimiter : Text) : Scheme where
  pairs
    | (key, .text t) => [(key, some t)]
    | (key, .list ts) => [(key, some (Text.joinWith delimiter ts))]
  key := Prod.fst
  value pair _ := splitText delimiter (orEmpty pair.2)

variable {settings : Settings} {delimiter : Text}

theorem encodeJoined_carried (set : settings.arrayDelimiter = .text delimiter) (key : Text)
    {v : Value} {w : Carried} (h : v.carried = .ok w) :
    encodeJoined settings (.text key) v =
      .ok (((delimited delimiter).pairs (key, w)).map keyed) := by
  unfold encodeJoined joinItems
  rw [set]
  obtain ⟨t, scalar, formatted, rfl⟩ | ⟨items, ts, multi, formatted, rfl⟩ := Value.carried_cases h
  · simp only [scalar, formatted]
    rfl
  · simp only [multi, formatted]
    rfl

theorem delimited_pairs {entry : Text × Carried} {pair : Wire.Pair Text}
    (h : pair ∈ (delimited delimiter).pairs entry) : pair.1 = entry.1 ∧ pair.2 ≠ none := by
  rcases entry with ⟨key, t | ts⟩
  · rw [List.mem_singleton.mp h]
    exact ⟨rfl, nofun⟩
  · rw [List.mem_singleton.mp h]
    exact ⟨rfl, nofun⟩

/-- The parts of a value, joined, are the value, which splits into the same parts again. -/
theorem canonical_splitText (key value : Text) :
    (delimited delimiter).Canonical key (splitText delimiter value) := by
  by_cases splits : (!delimiter.isEmpty && Text.occursIn delimiter value) = true
  · have nonempty : delimiter ≠ [] := by
      rintro rfl
      cases splits
    have list : splitText delimiter value =
        (Carried.list (Text.splitAtAll delimiter value)).value := if_pos splits
    refine ⟨_, list.symm, fun pair member => (delimited_pairs member).1, ?_⟩
    rw [← list]
    exact congrArg (some <| splitText delimiter ·) (Text.joinWith_splitAtAll nonempty value)
  · have text : splitText delimiter value = (Carried.text value).value := if_neg splits
    refine ⟨_, text.symm, fun pair member => (delimited_pairs member).1, ?_⟩
    rw [← text]
    rfl

theorem delimited_describes (set : settings.arrayDelimiter = .text delimiter) :
    (delimited delimiter).Describes settings .delimited where
  encode key _ _ := encodeJoined_carried set key
  framed _ _ member alone := absurd alone (delimited_pairs member).2
  decode pairs := by
    apply foldlM_ok
    intro params pair
    rw [takeJoined, set, splitJoined_text]
    rfl
  closed pair _ _ := canonical_splitText pair.1 (orEmpty pair.2)

end Scheme

/-- The layouts whose values are texts and lists of texts. One that joins lists needs a text to join
them with. -/
inductive Layout.Textual (settings : Settings) : Layout → Prop
  | standard : Textual settings .standard
  | delimited (delimiter : Text) (set : settings.arrayDelimiter = .text delimiter) :
      Textual settings .delimited
  | bracket : Textual settings .bracket

theorem Layout.Textual.exists_scheme {settings : Settings} {layout : Layout}
    (textual : layout.Textual settings) : ∃ scheme : Scheme, scheme.Describes settings layout := by
  cases textual with
  | standard => exact ⟨_, Scheme.standard_describes settings⟩
  | delimited delimiter set => exact ⟨_, Scheme.delimited_describes set⟩
  | bracket => exact ⟨_, Scheme.bracket_describes settings⟩

theorem read_of_parse {codec : Codec} {query : Text} {params : Params}
    (h : codec.parse query = .ok params) : codec.read query = { params } := by
  unfold read
  rw [h]

/-- A query is read if and only if every percent sign in it starts an escape and its bytes are
valid; otherwise nothing is read, and the fault holds the query without its question mark. -/
theorem read_accepts_exactly (codec : Codec) (utf8 : Wire.IsUtf8 codec.settings.encoding)
    (textual : codec.layout.Textual codec.settings) (query : Text) :
    ((codec.read query).ok = true ↔ Wire.Escaped query ∧ Utf8.Valid (Wire.octets query)) ∧
      ((codec.read query).ok = false → (codec.read query).params = [] ∧
        ∃ flaw, (codec.read query).fault =
          some (.malformedQuery flaw (Text.dropLead '?' query))) := by
  obtain ⟨scheme, describes⟩ := textual.exists_scheme
  have readable : Wire.Escaped query ∧ Utf8.Valid (Wire.octets query) ↔
      ∃ pairs, codec.split query = .ok pairs := by
    rw [split, Wire.exists_readPairs_iff utf8]
    exact ⟨fun h => ⟨h.1, h.2⟩, fun h => ⟨h.escaped, h.valid⟩⟩
  rw [readable]
  cases result : codec.split query with
  | ok pairs =>
      have parsed : codec.parse query = .ok (scheme.read pairs) := by
        rw [parse, result]
        exact describes.decode pairs
      rw [read_of_parse parsed]
      refine ⟨iff_of_true rfl ⟨pairs, rfl⟩, ?_⟩
      intro refused
      cases refused
  | error fault =>
      have failed : codec.read query = { fault := some fault } := by
        unfold read parse
        rw [result]
        rfl
      obtain ⟨flaw, rfl⟩ := Wire.readPairs_error utf8 result
      rw [failed]
      refine ⟨iff_of_false Bool.false_ne_true ?_, fun _ => ⟨rfl, flaw, rfl⟩⟩
      rintro ⟨pairs, same⟩
      cases same

theorem read_accepts_exactly_delimited :
    Wire.IsUtf8 ({} : Settings).encoding ∧ Layout.delimited.Textual {} ∧
      let reading := read (α := Char) ⟨.delimited, {}, .logging⟩ "?tag=a%7Cb&%C3=%BC".toList
      (reading.ok = true ↔
        Wire.Escaped "?tag=a%7Cb&%C3=%BC".toList ∧
          Utf8.Valid (Wire.octets "?tag=a%7Cb&%C3=%BC".toList)) ∧
      (reading.ok = false → reading.params = [] ∧
        ∃ flaw, reading.fault = some (.malformedQuery flaw "tag=a%7Cb&%C3=%BC".toList)) := by
  have textual : Layout.delimited.Textual {} := .delimited ['|'] rfl
  exact ⟨isUtf8_default, textual,
    read_accepts_exactly ⟨.delimited, {}, .logging⟩ isUtf8_default textual _⟩

/-- What was read can be written, and the query that is written reads the same. -/
theorem read_has_canonical (codec : Codec) (utf8 : Wire.IsUtf8 codec.settings.encoding)
    (textual : codec.layout.Textual codec.settings) (query : Text)
    (ok : (codec.read query).ok = true) :
    ∃ canonical, codec.serialize (codec.read query).params.entries = .ok canonical ∧
      codec.read canonical = codec.read query := by
  obtain ⟨scheme, describes⟩ := textual.exists_scheme
  cases parsed : codec.parse query with
  | error fault =>
      unfold read at ok
      rw [parsed] at ok
      cases ok
  | ok params =>
      obtain ⟨canonical, written, again⟩ := describes.rewrites codec.sink utf8 parsed
      rw [read_of_parse parsed]
      exact ⟨canonical, written, read_of_parse again⟩

theorem read_has_canonical_repeated :
    let codec : Codec := ⟨.standard, {}, .logging⟩
    let reading := codec.read "a&b=1&a=%2b".toList
    Wire.IsUtf8 codec.settings.encoding ∧ codec.layout.Textual codec.settings ∧
      reading.ok = true ∧
      ∃ canonical, codec.serialize reading.params.entries = .ok canonical ∧
        codec.read canonical = reading := by
  intro codec reading
  have textual : codec.layout.Textual codec.settings := .standard
  have ok : reading.ok = true := by decide +kernel
  exact ⟨isUtf8_default, textual, ok, read_has_canonical codec isUtf8_default textual _ ok⟩

end FragmentRouting.Codec
