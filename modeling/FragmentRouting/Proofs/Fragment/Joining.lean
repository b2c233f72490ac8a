import FragmentRouting.Proofs.Codec.Framing
import FragmentRouting.Proofs.Fragment.Build
import FragmentRouting.Proofs.Wire.Joining

/-!
A path may bring a query of its own, to which another is appended. The whole query then has the
pairs of both, in turn, and is refused if one of them is. Empty parts, which such joining may leave,
have no pairs.
-/
namespace FragmentRouting

namespace Codec

/-- Whether two queries have the same pairs, or neither can be read. -/
def SamePairs (codec : Codec) (query query' : Text) : Prop :=
  ∀ pairs, codec.split query = .ok pairs ↔ codec.split query' = .ok pairs

theorem samePairs_doubled (codec : Codec) (u v : Text) :
    codec.SamePairs (u ++ '&' :: '&' :: v) (u ++ '&' :: v) := by
  apply Wire.readPairs_congr
  rw [Wire.parts_dropLead_append, Wire.parts_dropLead_append, Wire.parts_cons]

theorem samePairs_trailing (codec : Codec) (u : Text) : codec.SamePairs (u ++ ['&']) u := by
  apply Wire.readPairs_congr
  rw [Wire.parts_dropLead_append]
  exact List.append_nil _

theorem samePairs_leading (codec : Codec) (v : Text) : codec.SamePairs ('&' :: v) ('?' :: v) := by
  apply Wire.readPairs_congr
  exact Wire.parts_cons v

theorem samePairs_marked (codec : Codec) {v : Text} (unled : v.head? ≠ some '?') :
    codec.SamePairs ('?' :: v) v := by
  apply Wire.readPairs_congr
  rw [Text.dropLead_of_head? unled]
  rfl

/-- Layouts that are built in write pairs that all leave something to read. -/
theorem visible_of_builtIn {codec : Codec} {label : Text}
    (known : (label, codec.layout) ∈ Registry.builtIn) {params : Params}
    {all : List (Wire.Pair Value)} (encoded : codec.encodePairs params.entries = .ok all) :
    ∃ written : List (Wire.Pair Text),
      all = written.map keyed ∧ written.filter Wire.isVisible = written := by
  rcases codec with ⟨layout, settings, sink⟩
  obtain ⟨own, -, same, apart⟩ := (frames_builtIn known).of_encodePairs encoded
  exact ⟨own.flatten, same, Wire.filter_isVisible apart⟩

end Codec

namespace Fragment

open Codec (keyed Registry)

/-- Behind the first question mark of a path to which a query was appended, there are the pairs of
the path's own query and then those of the other one: if that one was serialized, the pairs that it
was written from, without empty keys that stand alone, of which built-in layouts write none. -/
theorem split_appendQuery (codec : Codec) :
    (∀ path first second, '?' ∉ path → second ≠ [] →
      ∃ joined, Text.cut '?' (appendQuery (path ++ '?' :: first) second) = (path, some joined) ∧
        (second.head? ≠ some '?' → ∀ pairs, codec.split joined = .ok pairs ↔
          ∃ front back, codec.split first = .ok front ∧ codec.split second = .ok back ∧
            pairs = front ++ back) ∧
        ∀ charset entries (written front : List (Wire.Pair Text)),
          Wire.Names codec.settings.encoding charset →
          codec.encodePairs entries = .ok (written.map keyed) →
          codec.serialize entries = .ok second → codec.split first = .ok front →
            codec.split joined = .ok (front ++ written.filter Wire.isVisible) ∧
            codec.parse joined = codec.layout.decode codec.settings
              (front ++ written.filter Wire.isVisible)) ∧
      (∀ label, (label, codec.layout) ∈ Registry.builtIn → ∀ (params : Params) all,
        codec.encodePairs params.entries = .ok all →
          ∃ written : List (Wire.Pair Text),
            all = written.map keyed ∧ written.filter Wire.isVisible = written) ∧
      ∀ u v, codec.SamePairs (u ++ '&' :: '&' :: v) (u ++ '&' :: v) ∧
        codec.SamePairs (u ++ ['&']) u ∧ codec.SamePairs ('&' :: v) ('?' :: v) ∧
        (v.head? ≠ some '?' → codec.SamePairs ('?' :: v) v) := by
  refine ⟨?_, fun label known params all => Codec.visible_of_builtIn known, ?_⟩
  · intro path first second unmarked some_
    have appended : appendQuery (path ++ '?' :: first) second =
        path ++ '?' :: (first ++ '&' :: second) := by
      have marked : '?' ∈ path ++ '?' :: first := List.mem_append_right path List.mem_cons_self
      rw [appendQuery_of_mem marked some_, List.append_assoc]
      rfl
    refine ⟨first ++ '&' :: second, ?_, ?_, ?_⟩
    · rw [appended]
      exact Text.cut_append unmarked _
    · intro unled pairs
      exact Wire.readPairs_append_iff unled
    · intro charset entries written front names encoded serialized read
      have unled : second.head? ≠ some '?' := by
        intro lead
        exact not_mem_of_serialize serialized (by decide) (List.mem_of_head? lead)
      have back : codec.split second = .ok (written.filter Wire.isVisible) := by
        rw [Codec.serialize, encoded, ok_bind] at serialized
        exact Wire.readPairs_of_writePairs_visible names serialized
      have whole : codec.split (first ++ '&' :: second) =
          .ok (front ++ written.filter Wire.isVisible) :=
        (Wire.readPairs_append_iff unled).mpr ⟨front, _, read, back, rfl⟩
      refine ⟨whole, ?_⟩
      rw [Codec.parse, whole]
      rfl
  · intro u v
    exact ⟨codec.samePairs_doubled u v, codec.samePairs_trailing u, codec.samePairs_leading v,
      codec.samePairs_marked⟩

/-- A path with a query of its own, of which one part is empty between others and one at the end. -/
def sortedPath : Text := "search".toList

def sortedOwn : Text := "?sort=asc&&by&".toList

def sortedParams : Params := [
  ("sort".toList, .list [.text "a&b".toList, .text []]),
  ([], .text "?".toList)]

theorem split_appendQuery_sorted :
    let codec : Codec := ⟨.standard, {}, .logging⟩
    '?' ∉ sortedPath ∧ "sort=a%26b&sort=&=%3F".toList ≠ [] ∧
      "sort=a%26b&sort=&=%3F".toList.head? ≠ some '?' ∧
      ∃ joined,
        Text.cut '?' (appendQuery (sortedPath ++ '?' :: sortedOwn)
          "sort=a%26b&sort=&=%3F".toList) = (sortedPath, some joined) ∧
        (∀ pairs, codec.split joined = .ok pairs ↔
          ∃ front back, codec.split sortedOwn = .ok front ∧
            codec.split "sort=a%26b&sort=&=%3F".toList = .ok back ∧ pairs = front ++ back) ∧
        codec.parse joined = .ok [
          ("sort".toList, .list [.text "asc".toList, .text "a&b".toList, .text []]),
          ("by".toList, .text []),
          ([], .text "?".toList)] := by
  have unmarked : '?' ∉ sortedPath := by decide
  have some_ : "sort=a%26b&sort=&=%3F".toList ≠ [] := by decide
  have unled : "sort=a%26b&sort=&=%3F".toList.head? ≠ some '?' := by decide
  have encoded : Codec.encodePairs ⟨.standard, {}, .logging⟩ sortedParams.entries =
      .ok (List.map keyed [("sort".toList, some "a&b".toList), ("sort".toList, some []),
        ([], some "?".toList)]) := rfl
  have serialized : Codec.serialize ⟨.standard, {}, .logging⟩ sortedParams.entries =
      .ok "sort=a%26b&sort=&=%3F".toList := by decide +kernel
  have read : Codec.split (α := Char) ⟨.standard, {}, .logging⟩ sortedOwn =
      .ok [("sort".toList, some "asc".toList), ("by".toList, none)] := by decide +kernel
  obtain ⟨joined, behind, both, after⟩ :=
    (split_appendQuery ⟨.standard, {}, .logging⟩).1 sortedPath sortedOwn _ unmarked some_
  obtain ⟨-, parsed⟩ := after .utf8 _ _ _ Codec.isUtf8_default encoded serialized read
  exact ⟨unmarked, some_, unled, joined, behind, both unled, parsed.trans rfl⟩

end Fragment

end FragmentRouting
