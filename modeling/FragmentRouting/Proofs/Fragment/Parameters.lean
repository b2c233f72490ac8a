import FragmentRouting.Codec.Layouts
import FragmentRouting.Proofs.Fragment.Extract
import FragmentRouting.Proofs.Template.Slots

/-!
The parameters of a compiled template: one for each owner of a slot and one for the query. They are
one for each token and one for the query exactly if every parenthesis of the template opens or
closes an optional part.
-/
namespace FragmentRouting.Fragment

open Template (Compiled Compiler Object Owns Token owners queryBody tokens)

section Compiled

variable {template path : Text} {compiled : Compiled} {captures : List (Option Text)}

/-- The last parameter is null, or the map of a query. The others are the captures. -/
theorem decode_compiled (codec : Codec)
    (fresh : (Template.compileFresh Template.standardHost {} template).1 = .ok compiled)
    (matched : compiled.matcher.captures? path = some captures) {params : List Value}
    (decoded : (decode codec (captures.map parameter)).1 = .ok params) :
    params.length = captures.length ∧ params.dropLast = captures.dropLast.map parameter ∧
      (captures.getLast? = some none ∧ params.getLast? = some .null ∨
        ∃ query map, captures.getLast? = some (some ('?' :: query)) ∧ '?' :: query <:+: path ∧
          (codec.deserialize query).1 = .ok map ∧ params.getLast? = some map.toValue) := by
  obtain ⟨length, _, last⟩ := Template.captures_compiled fresh matched
  rcases last with missing | ⟨query, last, part⟩
  · rw [decode_plain codec missing] at decoded
    rw [← Except.ok.inj decoded, List.length_map, List.map_dropLast, List.getLast?_map, missing]
    exact ⟨rfl, rfl, .inl ⟨rfl, rfl⟩⟩
  · rw [decode_concat codec last] at decoded
    obtain ⟨map, read, rfl⟩ := map_eq_ok_iff.mp decoded
    rw [List.dropLast_concat, List.getLast?_concat, List.length_append, List.length_map,
      List.length_dropLast, length]
    exact ⟨rfl, rfl, .inr ⟨query, map, last, part, read, rfl⟩⟩

end Compiled

/-- A template that compiles gives one parameter for each owner of a slot and one for the query, in
the order of the groups. This is one for each token and one for the query exactly if no parenthesis
has a slot, and then the slots belong to the tokens in their order. -/
theorem extract_compiled {template : Text} {object : Object}
    (compiled : (({} : Compiler).compile template).1 = .ok object) (codec : Codec) {path : Text}
    {params : List Value}
    (extracted : (extract codec object.compiled.matcher path).1 = .ok (some params)) :
    params.length = (owners template).length + 1 ∧
      (params.length = (tokens template).length + 1 ↔ none ∉ owners template) ∧
      (none ∉ owners template → owners template = (tokens template).map some) ∧
      ∃ (bodies : List Pattern) (captures : List (Option Text)),
        List.Forall₂ Owns (owners template) bodies ∧
          object.compiled.matcher.pattern.groups = (bodies ++ [queryBody]).zipIdx ∧
          object.compiled.matcher.captures? path = some captures ∧
          params.dropLast = captures.dropLast.map parameter ∧
          (∀ (slot : Nat) (token : Token), (owners template)[slot]? = some (some token) →
            captures[slot]? = some none ∨
              ∃ v, captures[slot]? = some (some v) ∧ token.kind.Admits v ∧ v <:+: path) ∧
          (captures.getLast? = some none ∧ params.getLast? = some .null ∨
            ∃ query map, captures.getLast? = some (some ('?' :: query)) ∧
              '?' :: query <:+: path ∧ (codec.deserialize query).1 = .ok map ∧
              params.getLast? = some map.toValue) := by
  have fresh := (Template.compile_default template).symm.trans (congrArg _ compiled)
  obtain ⟨captures, matched, decoded⟩ := extract_eq_some_iff.mp extracted
  obtain ⟨bodies, owned, groups⟩ := Template.groups_compiled fresh
  obtain ⟨length, kept, _⟩ := Template.captures_compiled fresh matched
  obtain ⟨size, others, last⟩ := decode_compiled codec fresh matched decoded
  rw [size, length]
  refine ⟨rfl, ?_, Template.owners_of_not_mem, bodies, captures, owned, groups, matched, others,
    kept, last⟩
  rw [Nat.add_right_cancel_iff]
  exact Template.length_owners_iff template

def nestedTemplate : Text := "docs(/:section(/:page))".toList

/-- The inner parenthesis has a slot of its own. -/
theorem extract_nested :
    ∃ object, (({} : Compiler).compile nestedTemplate).1 = .ok object ∧
      (extract ⟨.bracket, {}, .logging⟩ object.compiled.matcher "docs/a/b".toList).1 =
        .ok (some [.text "a".toList, .text "/b".toList, .text "b".toList, .null]) := by
  have read : (({} : Compiler).compile nestedTemplate).1.toOption.bind
      (·.compiled.matcher.captures? "docs/a/b".toList) =
        some [some "a".toList, some "/b".toList, some "b".toList, none] := by
    decide +kernel
  cases compiled : (({} : Compiler).compile nestedTemplate).1 with
  | error fault =>
      rw [compiled] at read
      cases read
  | ok object =>
      rw [compiled] at read
      have captured : object.compiled.matcher.captures? "docs/a/b".toList = some _ := read
      refine ⟨object, rfl, ?_⟩
      rw [extract_of_captures? captured, decode_plain _ rfl]
      rfl

theorem extract_compiled_nested :
    ∃ object params, (({} : Compiler).compile nestedTemplate).1 = .ok object ∧
      (extract ⟨.bracket, {}, .logging⟩ object.compiled.matcher "docs/a/b".toList).1 =
        .ok (some params) ∧
      params.length = (owners nestedTemplate).length + 1 ∧
      (params.length = (tokens nestedTemplate).length + 1 ↔ none ∉ owners nestedTemplate) := by
  obtain ⟨object, compiled, extracted⟩ := extract_nested
  obtain ⟨length, fits, _⟩ := extract_compiled compiled ⟨.bracket, {}, .logging⟩ extracted
  exact ⟨object, _, compiled, extracted, length, fits⟩

/-- There are more parameters than one for each token and one for the query. -/
theorem length_nested_ne :
    ∃ object params, (({} : Compiler).compile nestedTemplate).1 = .ok object ∧
      (extract ⟨.bracket, {}, .logging⟩ object.compiled.matcher "docs/a/b".toList).1 =
        .ok (some params) ∧
      params.length ≠ (tokens nestedTemplate).length + 1 := by
  obtain ⟨object, compiled, extracted⟩ := extract_nested
  have two : (tokens nestedTemplate).length = 2 := by decide +kernel
  refine ⟨object, _, compiled, extracted, ?_⟩
  rw [two]
  exact Nat.succ_ne_self 3

end FragmentRouting.Fragment
