import FragmentRouting.Proofs.Codec.CodePoints
import FragmentRouting.Proofs.Codec.Textual

/-!
Joined lists, there and back. A value is split where its delimiter stands, whether it was joined or
not, so a text has to be free of the delimiter and a list needs two items to be split between.
-/
namespace FragmentRouting.Codec

open OrderedMap (keys)

/-- Whether a delimiter shares no character with what is carried, and a list has items for it to
part. -/
def Separable (delimiter : Text) : Carried → Prop
  | .text t => delimiter.Disjoint t
  | .list ts => 2 ≤ ts.length ∧ ∀ t ∈ ts, delimiter.Disjoint t

instance (s t : Text) : Decidable (s.Disjoint t) :=
  decidable_of_iff ((s.all fun c => !t.contains c) = true) (by simp [List.Disjoint])

instance (delimiter : Text) : (w : Carried) → Decidable (Separable delimiter w)
  | .text t => inferInstanceAs (Decidable (delimiter.Disjoint t))
  | .list ts => inferInstanceAs (Decidable (2 ≤ ts.length ∧ ∀ t ∈ ts, delimiter.Disjoint t))

namespace Scheme

variable {delimiter : Text}

theorem splitText_of_occurs (nonempty : delimiter ≠ []) {value : Text}
    (splits : delimiter <:+: value) :
    splitText delimiter value = .list ((Text.splitAtAll delimiter value).map .text) := by
  apply if_pos
  rw [Text.occursIn_iff.mpr splits, Bool.and_true, Bool.not_eq_true', List.isEmpty_eq_false_iff]
  exact nonempty

theorem splitText_of_absent {value : Text} (whole : ¬ delimiter <:+: value) :
    splitText delimiter value = .text value := by
  apply if_neg
  rw [Bool.and_eq_true, Text.occursIn_iff]
  exact fun splits => whole splits.2

theorem restores_delimited_iff {key : Text} {w : Carried} :
    (delimited delimiter).Restores (key, w) ↔
      (delimited delimiter).gather ((delimited delimiter).pairs (key, w)) none = some w.value :=
  ⟨fun restores => restores.value, fun value => ⟨fun _ member => (delimited_pairs member).1, value⟩⟩

theorem restores_delimited_text_iff (nonempty : delimiter ≠ []) {key t : Text} :
    (delimited delimiter).Restores (key, .text t) ↔ ¬ delimiter <:+: t := by
  have gathered : (delimited delimiter).Restores (key, .text t) ↔
      some (splitText delimiter t) = some (.text t) := restores_delimited_iff
  rw [gathered, Option.some_inj]
  constructor
  · intro same splits
    rw [splitText_of_occurs nonempty splits] at same
    cases same
  · exact splitText_of_absent

theorem restores_delimited_list_iff (nonempty : delimiter ≠ []) {key : Text} {ts : List Text} :
    (delimited delimiter).Restores (key, .list ts) ↔
      delimiter <:+: Text.joinWith delimiter ts ∧
        Text.splitAtAll delimiter (Text.joinWith delimiter ts) = ts := by
  have gathered : (delimited delimiter).Restores (key, .list ts) ↔
      some (splitText delimiter (Text.joinWith delimiter ts)) = some (.list (ts.map .text)) :=
    restores_delimited_iff
  rw [gathered, Option.some_inj]
  by_cases splits : delimiter <:+: Text.joinWith delimiter ts
  · rw [splitText_of_occurs nonempty splits, and_iff_right splits]
    constructor
    · intro same
      exact List.map_injective_iff.mpr (fun _ _ => Value.text.inj) (Value.list.inj same)
    · intro same
      rw [same]
  · rw [splitText_of_absent splits]
    exact iff_of_false nofun fun h => splits h.1

theorem occurs_joinWith {ts : List Text} (two : 2 ≤ ts.length) :
    delimiter <:+: Text.joinWith delimiter ts := by
  match ts with
  | [] => cases two
  | [t] => exact absurd two (Nat.not_succ_le_self 1)
  | t :: u :: ts =>
      rw [Text.joinWith, List.intercalate_cons_cons]
      exact ⟨t, _, rfl⟩

/-- Whatever the delimiter, what it shares no character with comes back. -/
theorem restores_of_separable (nonempty : delimiter ≠ []) {key : Text} {w : Carried}
    (separable : Separable delimiter w) : (delimited delimiter).Restores (key, w) := by
  cases w with
  | text t =>
      rw [restores_delimited_text_iff nonempty]
      intro splits
      obtain ⟨c, member⟩ := List.exists_mem_of_ne_nil delimiter nonempty
      exact separable member (splits.subset member)
  | list ts =>
      obtain ⟨two, disjoint⟩ := separable
      have some_ : ts ≠ [] := by
        rintro rfl
        cases two
      exact (restores_delimited_list_iff nonempty).mpr
        ⟨occurs_joinWith two, Text.splitAtAll_joinWith nonempty some_ disjoint⟩

/-- Nothing else comes back if the delimiter is a single character. -/
theorem separable_of_restores {d : Char} {key : Text} {w : Carried}
    (restores : (delimited [d]).Restores (key, w)) : Separable [d] w := by
  have nonempty : [d] ≠ [] := List.cons_ne_nil d []
  cases w with
  | text t =>
      rw [restores_delimited_text_iff nonempty, List.singleton_infix_iff] at restores
      exact List.singleton_disjoint.mpr restores
  | list ts =>
      obtain ⟨splits, same⟩ := (restores_delimited_list_iff nonempty).mp restores
      have absent : ∀ t ∈ ts, d ∉ t := by
        intro t member
        rw [← same] at member
        exact Text.not_mem_of_mem_splitAtAll member
      refine ⟨?_, fun t member => List.singleton_disjoint.mpr (absent t member)⟩
      rw [List.singleton_infix_iff] at splits
      match ts with
      | [] => cases splits
      | [t] =>
          rw [Text.joinWith, List.intercalate_singleton] at splits
          exact absurd splits (absent t List.mem_cons_self)
      | t :: u :: ts => exact Nat.le_add_left 2 ts.length

end Scheme

/-- Texts and lists of texts are written and read without fault. They come back if every list has at
least two items and no text or item shares a character with the delimiter; and, if the delimiter is
a single character, only then. -/
theorem delimited_round_trip (settings : Settings) (sink : Sink)
    (utf8 : Wire.IsUtf8 settings.encoding) (delimiter : Text) (nonempty : delimiter ≠ [])
    (set : settings.arrayDelimiter = .text delimiter) (carried : OrderedMap Text Carried)
    (distinct : (keys carried).Nodup) :
    let codec : Codec CodePoint := ⟨.delimited, settings, sink⟩
    ∃ query decoded,
      codec.serialize (spelledParams (Params.ofCarried carried).entries) = .ok query ∧
      codec.parse query = .ok decoded ∧
      ((∀ entry ∈ carried, Separable delimiter entry.2) → decoded = Params.ofCarried carried) ∧
      (delimiter.length = 1 → decoded = Params.ofCarried carried →
        ∀ entry ∈ carried, Separable delimiter entry.2) := by
  intro codec
  have describes := Scheme.delimited_describes set
  have formatted := Params.carried_ofCarried carried
  have flat := Params.kind_ofCarried carried
  have decoded := describes.read_pairs_iff distinct
  have written := describes.serialize sink utf8 flat formatted
  refine ⟨_, _, (serialize_spelled spells_delimited settings sink _).trans written,
    describes.parse sink utf8 carried, ?_, ?_⟩
  · intro separable
    exact decoded.mpr fun entry member =>
      Scheme.restores_of_separable nonempty (separable entry member)
  · intro single same entry member
    obtain ⟨d, rfl⟩ := List.length_eq_one_iff.mp single
    exact Scheme.separable_of_restores (decoded.mp same entry member)

/-- A text with separators, two empty items under the empty key, and an empty one among others. -/
def pipedCarried : OrderedMap Text Carried := [
  ("a=b&".toList, .text "+ü%".toList),
  ([], .list [[], []]),
  ("k".toList, .list ["one".toList, [], "two".toList])]

theorem delimited_round_trip_piped :
    Wire.IsUtf8 ({} : Settings).encoding ∧ ['|'] ≠ [] ∧
      ({} : Settings).arrayDelimiter = .text ['|'] ∧ (keys pipedCarried).Nodup ∧
      (∀ entry ∈ pipedCarried, Separable ['|'] entry.2) ∧
      let codec : Codec CodePoint := ⟨.delimited, {}, .logging⟩
      ∃ query,
        codec.serialize (spelledParams (Params.ofCarried pipedCarried).entries) = .ok query ∧
        codec.parse query = .ok (Params.ofCarried pipedCarried) := by
  have nonempty : ['|'] ≠ [] := List.cons_ne_nil '|' []
  have distinct : (keys pipedCarried).Nodup := by decide
  have separable : ∀ entry ∈ pipedCarried, Separable ['|'] entry.2 := by decide +kernel
  obtain ⟨query, decoded, written, parsed, kept, -⟩ :=
    delimited_round_trip {} .logging isUtf8_default ['|'] nonempty rfl pipedCarried distinct
  rw [kept separable] at parsed
  exact ⟨isUtf8_default, nonempty, rfl, distinct, separable, query, written, parsed⟩

/-- Half a surrogate pair shares nothing with the delimiter, but cannot be written. -/
theorem delimited_not_serialize_half :
    let codec : Codec CodePoint := ⟨.delimited, {}, .logging⟩
    let half : List CodePoint := [0xD800]
    Wire.IsUtf8 codec.settings.encoding ∧ codec.settings.arrayDelimiter = .text ['|'] ∧
      (∀ p ∈ half, p ∉ Alphabet.ofText (α := CodePoint) ['|']) ∧
      codec.serialize [(.text [0x61], .text half)] = .error (.unencodable ⟨.utf8, [0xD800], 0⟩) ∧
      ¬ ∃ query, codec.serialize [(.text [0x61], .text half)] = .ok query ∧
        ∃ decoded, codec.parse query = .ok decoded := by
  intro codec half
  have refused : codec.serialize [(.text [0x61], .text half)] =
      .error (.unencodable ⟨.utf8, [0xD800], 0⟩) := by decide +kernel
  have other : (0xD800 : CodePoint) ≠ CodePoint.ofChar '|' := by decide
  have apart : ∀ p ∈ half, p ∉ Alphabet.ofText (α := CodePoint) ['|'] :=
    List.forall_mem_singleton.mpr fun member => other (List.mem_singleton.mp member)
  refine ⟨isUtf8_default, rfl, apart, refused, ?_⟩
  rintro ⟨query, written, -⟩
  cases refused.symm.trans written

end FragmentRouting.Codec
