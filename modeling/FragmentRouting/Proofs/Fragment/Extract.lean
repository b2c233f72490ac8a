import FragmentRouting.Fragment.Basic
import FragmentRouting.Proofs.Except
import FragmentRouting.Proofs.Template.Query
import FragmentRouting.Proofs.Text.Basic

namespace FragmentRouting

namespace Codec

variable {codec : Codec} {query : Text} {params : Params}

theorem deserialize_of_parse (parsed : codec.parse query = .ok params) :
    codec.deserialize query = (.ok params, []) := by
  rw [deserialize, read, parsed]

/-- A query with a fault is delivered to the sink. It counts as empty, unless the sink raises. -/
theorem deserialize_of_fault {fault : Fault} (failed : codec.parse query = .error fault) :
    codec.deserialize query =
      ((codec.sink.deliver query fault).1.map fun _ => [],
        (codec.sink.deliver query fault).2) := by
  rw [deserialize, read, failed]

theorem deliver_of_deserialize {raised : Raised}
    (escaped : (codec.deserialize query).1 = .error raised) :
    ∃ fault, (codec.sink.deliver query fault).1 = .error raised := by
  cases parsed : codec.parse query with
  | ok own =>
      rw [deserialize_of_parse parsed] at escaped
      cases escaped
  | error fault =>
      rw [deserialize_of_fault parsed, map_eq_error_iff] at escaped
      exact ⟨fault, escaped⟩

end Codec

namespace Fragment

open Template (Unqueried narrowed)

section Captures

variable (codec : Codec) {captures : List (Option Text)}

theorem decode_concat {query : Text} (last : captures.getLast? = some (some ('?' :: query))) :
    decode codec (captures.map parameter) =
      ((codec.deserialize query).1.map fun params =>
          captures.dropLast.map parameter ++ [params.toValue],
        (codec.deserialize query).2) := by
  have text : (captures.map parameter).getLast? = some (.text ('?' :: query)) := by
    rw [List.getLast?_map, last]
    rfl
  rw [decode, text, ← List.map_dropLast]
  rfl

theorem decode_unqueried (last : ∀ query, captures.getLast? ≠ some (some ('?' :: query))) :
    decode codec (captures.map parameter) = (.ok (captures.map parameter), []) := by
  rw [decode]
  split
  next query text =>
      rw [List.getLast?_map, Option.map_eq_some_iff] at text
      obtain ⟨capture, found, same⟩ := text
      cases capture with
      | none => cases same
      | some t =>
          rw [Value.text.inj same] at found
          exact absurd found (last query)
  next => rfl

theorem decode_plain (last : captures.getLast? = some none) :
    decode codec (captures.map parameter) = (.ok (captures.map parameter), []) := by
  refine decode_unqueried codec fun query => ?_
  rw [last]
  exact nofun

theorem deliver_of_decode {raised : Raised}
    (escaped : (decode codec (captures.map parameter)).1 = .error raised) :
    ∃ query fault, (codec.sink.deliver query fault).1 = .error raised := by
  by_cases queried : ∃ query, captures.getLast? = some (some ('?' :: query))
  · obtain ⟨query, last⟩ := queried
    rw [decode_concat codec last, map_eq_error_iff] at escaped
    exact ⟨query, Codec.deliver_of_deserialize escaped⟩
  · rw [decode_unqueried codec fun query last => queried ⟨query, last⟩] at escaped
    cases escaped

end Captures

section Matching

variable {codec : Codec} {matcher : Matcher} {path : Text}

theorem extract_of_captures? {captures : List (Option Text)}
    (matched : matcher.captures? path = some captures) :
    extract codec matcher path =
      ((decode codec (captures.map parameter)).1.map some,
        (decode codec (captures.map parameter)).2) := by
  rw [extract, matched]

theorem extract_eq_none_iff :
    (extract codec matcher path).1 = .ok none ↔ matcher.captures? path = none := by
  cases matched : matcher.captures? path with
  | none => exact iff_of_true (by rw [extract, matched]) rfl
  | some captures =>
      rw [extract_of_captures? matched, map_eq_ok_iff]
      exact iff_of_false (by rintro ⟨_, -, same⟩; cases same) nofun

theorem extract_eq_some_iff {params : List Value} :
    (extract codec matcher path).1 = .ok (some params) ↔
      ∃ captures, matcher.captures? path = some captures ∧
        (decode codec (captures.map parameter)).1 = .ok params := by
  cases matched : matcher.captures? path with
  | none =>
      rw [extract, matched]
      exact iff_of_false nofun (by rintro ⟨_, same, -⟩; cases same)
  | some captures =>
      rw [extract_of_captures? matched, map_eq_ok_iff]
      constructor
      · rintro ⟨_, decoded, same⟩
        exact ⟨captures, rfl, Option.some.inj same ▸ decoded⟩
      · rintro ⟨_, same, decoded⟩
        exact ⟨params, Option.some.inj same ▸ decoded, rfl⟩

end Matching

section Narrowed

variable {matcher : Matcher} {parts : List Pattern} {path : Text} (codec : Codec)

theorem captures?_narrowed (narrow : matcher.pattern = narrowed parts) (path : Text) :
    matcher.captures? path = (narrowed parts).captures? path := by
  rw [Matcher.captures?, narrow]

theorem extract_plain (unqueried : Unqueried parts) (narrow : matcher.pattern = narrowed parts)
    (plain : '?' ∉ path) (matched : (matcher.captures? path).isSome = true) :
    ∃ front : List Value, front.length = (Pattern.seqAll parts).slots ∧
      extract codec matcher path = (.ok (some (front ++ [.null])), []) := by
  obtain ⟨captures, matched⟩ := Option.isSome_iff_exists.mp matched
  have own := captures?_narrowed narrow path ▸ matched
  obtain ⟨size, last⟩ := Template.captures_plain unqueried plain own
  obtain ⟨front, rfl⟩ := List.getLast?_eq_some_iff.mp last
  refine ⟨front.map parameter, ?_, ?_⟩
  · rw [List.length_map]
    rw [List.length_append] at size
    exact Nat.succ.inj size
  · rw [extract_of_captures? matched, decode_plain codec last, List.map_append]
    rfl

theorem extract_query (unqueried : Unqueried parts) (narrow : matcher.pattern = narrowed parts)
    (plain : '?' ∉ path) {query : Text} (line : '\n' ∉ query)
    (matched : (matcher.captures? (path ++ '?' :: query)).isSome = true) :
    ∃ front : List Value, front.length = (Pattern.seqAll parts).slots ∧
      (extract codec matcher (path ++ '?' :: query)).1 =
        (codec.deserialize query).1.map fun map => some (front ++ [map.toValue]) := by
  obtain ⟨captures, matched⟩ := Option.isSome_iff_exists.mp matched
  have own := captures?_narrowed narrow (path ++ '?' :: query) ▸ matched
  obtain ⟨size, last⟩ := Template.captures_query unqueried plain line own
  refine ⟨captures.dropLast.map parameter, ?_, ?_⟩
  · rw [List.length_map, List.length_dropLast, size]
    rfl
  · rw [extract_of_captures? matched, decode_concat codec last]
    cases (codec.deserialize query).1 <;> rfl

/-- A query changes the last parameter and nothing else. -/
theorem extract_append_query (unqueried : Unqueried parts)
    (narrow : matcher.pattern = narrowed parts) (plain : '?' ∉ path)
    (trimmed : Text.trimEnd path = path) {query : Text} (line : '\n' ∉ query)
    {captures : List (Option Text)} (matched : matcher.captures? path = some captures) :
    ∃ front : List Value,
      extract codec matcher path = (.ok (some (front ++ [.null])), []) ∧
      (extract codec matcher (path ++ '?' :: query)).1 =
        (codec.deserialize query).1.map fun map => some (front ++ [map.toValue]) := by
  have own := captures?_narrowed narrow path ▸ matched
  have last := (Template.captures_plain unqueried plain own).2
  have ended : path.getLast? ≠ some '\n' := Text.getLast?_ne_of_trimEnd trimmed (by decide)
  have added := Template.captures?_append_query unqueried plain ended line
  rw [own, ← captures?_narrowed narrow] at added
  obtain ⟨front, rfl⟩ := List.getLast?_eq_some_iff.mp last
  refine ⟨front.map parameter, ?_, ?_⟩
  · rw [extract_of_captures? matched, decode_plain codec last, List.map_append]
    rfl
  · rw [extract_of_captures? added, decode_concat codec List.getLast?_concat,
      List.dropLast_concat, List.dropLast_concat]
    cases (codec.deserialize query).1 <;> rfl

/-- A query has no influence on whether a path matches. -/
theorem captures?_append_query_eq_none_iff (unqueried : Unqueried parts)
    (narrow : matcher.pattern = narrowed parts) (plain : '?' ∉ path)
    (trimmed : Text.trimEnd path = path) {query : Text} (line : '\n' ∉ query) :
    matcher.captures? (path ++ '?' :: query) = none ↔ matcher.captures? path = none := by
  have ended : path.getLast? ≠ some '\n' := Text.getLast?_ne_of_trimEnd trimmed (by decide)
  rw [captures?_narrowed narrow, captures?_narrowed narrow,
    Template.captures?_append_query unqueried plain ended line, Option.map_eq_none_iff]

end Narrowed

end Fragment

end FragmentRouting
