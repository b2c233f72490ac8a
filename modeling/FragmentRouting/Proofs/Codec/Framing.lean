import FragmentRouting.Codec.Registry
import FragmentRouting.Proofs.Codec.Scheme

namespace FragmentRouting.Codec

/-- Pairs with texts for their keys, of which none that stands alone is empty. -/
structure Framed (written : List (Wire.Pair Value)) (pairs : List (Wire.Pair Text)) : Prop where
  same : written = pairs.map keyed
  apart : ∀ pair ∈ pairs, pair.2 = none → pair.1 ≠ []

theorem framed_values (key : Text) (ts : List Text) :
    Framed (ts.map fun t => (.text key, some t)) (ts.map fun t => (key, some t)) where
  same := by
    rw [List.map_map]
    rfl
  apart pair member alone := by
    obtain ⟨t, -, rfl⟩ := List.mem_map.mp member
    cases alone

theorem exists_framed_values {key : Text} {formatted : Except Fault (List Text)}
    {written : List (Wire.Pair Value)}
    (h : (do return (← formatted).map fun t => (Value.text key, some t)) = Except.ok written) :
    ∃ pairs, Framed written pairs := by
  obtain ⟨ts, -, h⟩ := bind_eq_ok_iff.mp h
  rw [← Except.ok.inj h]
  exact ⟨_, framed_values key ts⟩

theorem exists_framed_value {key : Text} {formatted : Except Fault Text}
    {written : List (Wire.Pair Value)}
    (h : (do return [(Value.text key, some (← formatted))]) = Except.ok written) :
    ∃ pairs, Framed written pairs := by
  obtain ⟨t, -, h⟩ := bind_eq_ok_iff.mp h
  rw [← Except.ok.inj h]
  exact ⟨_, framed_values key [t]⟩

theorem framed_bare {key : Text} (some_ : key ≠ []) :
    Framed [(.text key, none)] [(key, none)] where
  same := rfl
  apart pair member _ := by
    rw [List.mem_singleton.mp member]
    exact some_

/-- Whether all pairs that a layout writes for texts as keys are framed. -/
def Layout.Frames (settings : Settings) (layout : Layout) : Prop :=
  ∀ key v written, layout.encode settings (.text key) v = .ok written →
    ∃ pairs, Framed written pairs

variable {settings : Settings}

theorem frames_standard : Layout.standard.Frames settings := by
  intro key v written h
  change encodeRepeated (.text key) v = _ at h
  unfold encodeRepeated at h
  split at h
  next => exact exists_framed_values h
  next => exact exists_framed_value h

theorem frames_delimited : Layout.delimited.Frames settings := by
  intro key v written h
  change encodeJoined settings (.text key) v = _ at h
  unfold encodeJoined at h
  split at h
  next => exact exists_framed_value h
  next => exact exists_framed_value h

theorem frames_bracket : Layout.bracket.Frames settings := by
  intro key v written h
  change encodeBracket (.text key) v = _ at h
  unfold encodeBracket at h
  split at h
  next =>
      have suffix : key ++ listSuffix ≠ [] := List.append_ne_nil_of_right_ne_nil key nofun
      rw [← Except.ok.inj h]
      exact ⟨_, framed_bare suffix⟩
  next =>
      rw [suffixed, ok_bind] at h
      exact exists_framed_values h
  next => exact exists_framed_value h

theorem frames_json : Layout.json.Frames settings := fun _ _ _ h => exists_framed_value h

theorem frames_builtIn {label : Text} {layout : Layout}
    (known : (label, layout) ∈ Registry.builtIn) : layout.Frames settings := by
  simp only [Registry.builtIn, List.map_cons, List.map_nil, List.mem_cons, Prod.mk.injEq,
    List.not_mem_nil, or_false] at known
  rcases known with ⟨-, rfl⟩ | ⟨-, rfl⟩ | ⟨-, rfl⟩ | ⟨-, rfl⟩
  · exact frames_standard
  · exact frames_delimited
  · exact frames_bracket
  · exact frames_json

/-- If a layout's pairs are framed, the pairs of all parameters are the pairs of each in turn. -/
theorem Layout.Frames.of_encodePairs {layout : Layout} (frames : layout.Frames settings)
    {sink : Sink} {params : Params} {all : List (Wire.Pair Value)}
    (h : encodePairs ⟨layout, settings, sink⟩ params.entries = .ok all) :
    ∃ own : List (List (Wire.Pair Text)),
      List.Forall₂ (fun entry pairs =>
        layout.encode settings (.text entry.1) entry.2 = .ok (pairs.map keyed)) params own ∧
      Framed all own.flatten := by
  obtain ⟨written, each, rfl⟩ := forall₂_of_encodePairs h
  clear h
  induction each with
  | nil => exact ⟨[], .nil, rfl, List.forall_mem_nil _⟩
  | cons first _ ih =>
      obtain ⟨pairs, rfl, apart⟩ := frames _ _ _ first.2
      obtain ⟨own, others, framed⟩ := ih
      refine ⟨pairs :: own, .cons first.2 others, ?_, ?_⟩
      · rw [List.flatten_cons, List.flatten_cons, List.map_append, framed.same]
      · exact List.forall_mem_append.mpr ⟨apart, framed.apart⟩

/-- In every character set, under each of its names, a built-in layout's query consists of the
characters of queries alone and splits into the pairs of the parameters, in their order. -/
theorem split_of_serialize {label : Text} (layout : Layout)
    (known : (label, layout) ∈ Registry.builtIn) (settings : Settings) (sink : Sink) (name : Text)
    (charset : Charset) (named : settings.encoding.setting = .text name)
    (spelled : Charset.ofName? name = some charset) (params : Params) (query : Text)
    (written : serialize ⟨layout, settings, sink⟩ params.entries = .ok query) :
    Wire.Urlencoded query ∧
      ∃ own : List (List (Wire.Pair Text)),
        List.Forall₂ (fun entry pairs =>
          layout.encode settings (.text entry.1) entry.2 = .ok (pairs.map keyed)) params own ∧
        split ⟨layout, settings, sink⟩ query = .ok own.flatten := by
  have names : Wire.Names settings.encoding charset := Wire.names_of_ofName? named spelled
  obtain ⟨all, encoded, written⟩ := bind_eq_ok_iff.mp written
  obtain ⟨own, each, rfl, apart⟩ := (frames_builtIn known).of_encodePairs encoded
  exact ⟨Wire.urlencoded_writePairs written, own, each,
    Wire.readPairs_of_writePairs names apart written⟩

def westernSettings : Settings where
  encoding := { setting := .text "Windows-1252".toList }

/-- An empty list under the empty key, an empty text, separators, and characters that the set has
elsewhere than Latin-1. -/
def westernParams : Params := [
  ([], .list []),
  ("€ ü".toList, .text "a+b=1&2%".toList),
  ("x".toList, .text []),
  ("~".toList, .tuple [.null, .int (-5)])]

theorem split_of_serialize_western :
    ("bracket".toList, (.bracket : Layout)) ∈ Registry.builtIn ∧
      westernSettings.encoding.setting = .text "Windows-1252".toList ∧
      Charset.ofName? "Windows-1252".toList = some .windows1252 ∧
      ∃ query,
        serialize ⟨.bracket, westernSettings, .logging⟩ westernParams.entries = .ok query ∧
        Wire.Urlencoded query ∧
        ∃ own : List (List (Wire.Pair Text)),
          List.Forall₂ (fun entry pairs =>
            Layout.bracket.encode westernSettings (.text entry.1) entry.2 =
              .ok (pairs.map keyed)) westernParams own ∧
          split (α := Char) ⟨.bracket, westernSettings, .logging⟩ query = .ok own.flatten := by
  have known : ("bracket".toList, (.bracket : Layout)) ∈ Registry.builtIn :=
    .tail _ (.tail _ (.head _))
  have spelled : Charset.ofName? "Windows-1252".toList = some .windows1252 := by decide +kernel
  have written : serialize ⟨.bracket, westernSettings, .logging⟩ westernParams.entries =
      .ok "%5B%5D&%80+%FC=a%2Bb%3D1%262%25&x=&~%5B%5D=&~%5B%5D=-5".toList := by decide +kernel
  exact ⟨known, rfl, spelled, _, written, split_of_serialize .bracket known westernSettings
    .logging _ _ rfl spelled westernParams _ written⟩

end FragmentRouting.Codec
