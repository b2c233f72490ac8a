import FragmentRouting.Proofs.Codec.CodePoints
import FragmentRouting.Proofs.Codec.Textual

/-!
What repeated keys leave of parameters. An empty list is written as nothing at all, and a list of
one item as its item would be; a text and a longer list come back as they were carried.
-/
namespace FragmentRouting.Codec

open OrderedMap (keys)

def repeated : Carried → Option Carried
  | .list [] => none
  | .list [t] => some (.text t)
  | w => some w

/-- What repeated keys leave of parameters. -/
def repeatedForm (carried : OrderedMap Text Carried) : OrderedMap Text Carried :=
  carried.filterMap fun entry => (repeated entry.2).map (entry.1, ·)

namespace Scheme

theorem restores_standard_text (key t : Text) : standard.Restores (key, .text t) :=
  ⟨fun _ member => (standard_pairs member).1, rfl⟩

theorem restores_standard_list (key t u : Text) (ts : List Text) :
    standard.Restores (key, .list (t :: u :: ts)) := by
  -- Two pairs make a list; each one behind them is added at its end.
  induction ts using List.reverseRecOn with
  | nil => exact ⟨fun _ member => (standard_pairs member).1, rfl⟩
  | append_singleton ts last ih => exact restores_standard_concat ih

/-- Texts come back, and of the lists those with at least two items. -/
theorem restores_standard_iff {key : Text} {w : Carried} :
    standard.Restores (key, w) ↔ ∀ ts, w = .list ts → 2 ≤ ts.length := by
  match w with
  | .text t => exact iff_of_true (restores_standard_text key t) nofun
  | .list [] =>
      refine iff_of_false (fun restores => nomatch restores.value) fun h => ?_
      exact nomatch h [] rfl
  | .list [t] =>
      refine iff_of_false (fun restores => nomatch restores.value) fun h => ?_
      exact Nat.not_succ_le_self 1 (h [t] rfl)
  | .list (t :: u :: ts) =>
      refine iff_of_true (restores_standard_list key t u ts) fun items same => ?_
      rw [← Carried.list.inj same]
      exact Nat.le_add_left 2 ts.length

theorem restores_repeated {key : Text} {v w : Carried} (left : repeated v = some w) :
    standard.Restores (key, w) := by
  match v with
  | .list [] => cases left
  | .text t | .list [t] =>
      rw [← Option.some.inj left]
      exact restores_standard_text key t
  | .list (t :: u :: ts) =>
      rw [← Option.some.inj left]
      exact restores_standard_list key t u ts

/-- What is left is written as the whole was. -/
theorem flatMap_repeatedForm (carried : OrderedMap Text Carried) :
    (repeatedForm carried).flatMap standard.pairs = carried.flatMap standard.pairs := by
  induction carried with
  | nil => rfl
  | cons entry carried ih =>
      rcases entry with ⟨key, t | _ | ⟨t, _ | ⟨u, ts⟩⟩⟩
      all_goals
        rw [List.flatMap_cons, ← ih]
        rfl

theorem keys_repeatedForm (carried : OrderedMap Text Carried) :
    (keys (repeatedForm carried)).Sublist (keys carried) := by
  induction carried with
  | nil => exact .slnil
  | cons entry carried ih =>
      rw [repeatedForm, List.filterMap_cons]
      cases repeated entry.2 with
      | none => exact ih.cons _
      | some w => exact ih.cons_cons _

theorem read_standard {carried : OrderedMap Text Carried} (distinct : (keys carried).Nodup) :
    standard.read (carried.flatMap standard.pairs) = Params.ofCarried (repeatedForm carried) := by
  rw [← flatMap_repeatedForm]
  apply read_pairs (distinct.sublist (keys_repeatedForm carried))
  intro entry member
  obtain ⟨whole, -, mapped⟩ := List.mem_filterMap.mp member
  obtain ⟨w, left, rfl⟩ := Option.map_eq_some_iff.mp mapped
  exact restores_repeated left

end Scheme

/-- Parameters whose values or items have texts are written and read without fault, and come back as
what repeated keys leave of them. Of texts and lists of texts that is all if and only if every list
has at least two items. -/
theorem standard_normal_form (settings : Settings) (sink : Sink)
    (utf8 : Wire.IsUtf8 settings.encoding) (params : Params) (distinct : (keys params).Nodup)
    (flat : ∀ entry ∈ params, entry.2.kind ≠ .map) (carried : OrderedMap Text Carried)
    (formatted : params.carried = .ok carried) :
    let codec : Codec CodePoint := ⟨.standard, settings, sink⟩
    ∃ query,
      codec.serialize (spelledParams params.entries) = .ok query ∧
      codec.read query = { params := Params.ofCarried (repeatedForm carried) } ∧
      (params = Params.ofCarried carried →
        (Params.ofCarried (repeatedForm carried) = params ↔
          ∀ key ts, (key, Carried.list ts) ∈ carried → 2 ≤ ts.length)) := by
  intro codec
  have describes := Scheme.standard_describes settings
  rw [← Params.keys_carried formatted] at distinct
  have decoded := Scheme.read_standard distinct
  have written := describes.serialize sink utf8 flat formatted
  refine ⟨_, (serialize_spelled spells_standard settings sink _).trans written, ?_, ?_⟩
  · have parsed := describes.parse sink utf8 carried
    rw [decoded] at parsed
    exact read_of_parse parsed
  · intro texts
    rw [texts, ← decoded, describes.read_pairs_iff distinct]
    constructor
    · intro restored key ts member
      exact Scheme.restores_standard_iff.mp (restored _ member) ts rfl
    · rintro long ⟨key, w⟩ member
      rw [Scheme.restores_standard_iff]
      rintro ts rfl
      exact long key ts member

/-- A text, and lists of no, one and three items, under the empty key and one with separators. -/
def unevenCarried : OrderedMap Text Carried := [
  ("a=b&".toList, .text "+ü%".toList),
  ("none".toList, .list []),
  ([], .list ["one".toList]),
  ("k".toList, .list [[], "two".toList, []])]

theorem standard_normal_form_uneven :
    Wire.IsUtf8 ({} : Settings).encoding ∧ (keys (Params.ofCarried unevenCarried)).Nodup ∧
      (∀ entry ∈ Params.ofCarried unevenCarried, entry.2.kind ≠ .map) ∧
      (Params.ofCarried unevenCarried).carried = .ok unevenCarried ∧
      let codec : Codec CodePoint := ⟨.standard, {}, .logging⟩
      ∃ query,
        codec.serialize (spelledParams (Params.ofCarried unevenCarried).entries) = .ok query ∧
        codec.read query = { params := Params.ofCarried (repeatedForm unevenCarried) } ∧
        (Params.ofCarried (repeatedForm unevenCarried) = Params.ofCarried unevenCarried ↔
          ∀ key ts, (key, Carried.list ts) ∈ unevenCarried → 2 ≤ ts.length) := by
  have distinct : (keys (Params.ofCarried unevenCarried)).Nodup := by decide
  have flat := Params.kind_ofCarried unevenCarried
  have formatted := Params.carried_ofCarried unevenCarried
  obtain ⟨query, written, decoded, same⟩ :=
    standard_normal_form {} .logging isUtf8_default _ distinct flat _ formatted
  exact ⟨isUtf8_default, distinct, flat, formatted, query, written, decoded, same rfl⟩

/-- Half a surrogate pair is a text, but cannot be written. -/
theorem standard_not_serialize_half :
    let codec : Codec CodePoint := ⟨.standard, {}, .logging⟩
    let half : List CodePoint := [0xD800]
    Wire.IsUtf8 codec.settings.encoding ∧ Value.format (.text half) = .ok half ∧
      codec.serialize [(.text [0x61], .text half)] = .error (.unencodable ⟨.utf8, [0xD800], 0⟩) ∧
      ¬ ∃ query, codec.serialize [(.text [0x61], .text half)] = .ok query ∧
        (codec.read query).ok = true := by
  intro codec half
  have refused : codec.serialize [(.text [0x61], .text half)] =
      .error (.unencodable ⟨.utf8, [0xD800], 0⟩) := by decide +kernel
  refine ⟨isUtf8_default, rfl, refused, ?_⟩
  rintro ⟨query, written, -⟩
  cases refused.symm.trans written

end FragmentRouting.Codec
