import FragmentRouting.Proofs.Template.Language
import FragmentRouting.Proofs.Template.Memory

namespace FragmentRouting.Template

open Pattern (Place Regular reads_language seqAll ways_start)

theorem isSome_captures?_narrowed {parts : List Pattern} {path : Text} :
    ((narrowed parts).captures? path).isSome = true ↔
      ∃ s ∈ (seqAll parts).ways (Place.ofText (narrowed parts).slots path),
        (queryEnd (seqAll parts).slots).ways s ≠ [] := by
  rw [Pattern.captures?_eq_head?, Option.isSome_map, ways_narrowed, List.isSome_head?, ne_eq,
    List.flatMap_eq_nil_iff]
  exact not_forall₂.trans (exists_congr fun s => exists_prop)

theorem ways_queryEnd_of_end (slot : Nat) {s : Place} (nothing : s.rest = []) :
    (queryEnd slot).ways s ≠ [] := by
  have plain : s.rest.head? ≠ some '?' := by
    rw [nothing]
    exact nofun
  rw [ways_queryEnd_plain slot plain, Pattern.ways, if_pos (.inl nothing)]
  exact List.cons_ne_nil s []

theorem ways_queryEnd_of_query (slot : Nat) {s : Place} {query : Text} (line : '\n' ∉ query)
    (text : s.rest = '?' :: query) : (queryEnd slot).ways s ≠ [] := by
  obtain ⟨position, rest, captures⟩ := s
  have same : rest = '?' :: query := text
  rw [same, ways_queryEnd_query slot position line captures]
  exact List.cons_ne_nil _ []

section Regular

variable {ps : List Pattern} (regular : Regular (seqAll ps))

include regular

theorem captures?_of_language {u : Text} (inside : u ∈ (seqAll ps).language) :
    ((narrowed (.start :: ps)).captures? u).isSome = true ∧
      ∀ query : Text, '\n' ∉ query →
        ((narrowed (.start :: ps)).captures? (u ++ '?' :: query)).isSome = true := by
  have reads := reads_language regular
  constructor
  · obtain ⟨s, member, rest⟩ := reads.complete
      (s := Place.ofText (narrowed (.start :: ps)).slots u) inside (List.append_nil u).symm
    rw [isSome_captures?_narrowed]
    refine ⟨s, ?_, ways_queryEnd_of_end _ rest⟩
    rw [ways_start]
    exact member
  · intro query line
    obtain ⟨s, member, rest⟩ := reads.complete
      (s := Place.ofText (narrowed (.start :: ps)).slots (u ++ '?' :: query)) inside rfl
    rw [isSome_captures?_narrowed]
    refine ⟨s, ?_, ways_queryEnd_of_query _ line rest⟩
    rw [ways_start]
    exact member

theorem captures?_iff_language {path : Text} (line : '\n' ∉ path) :
    ((narrowed (.start :: ps)).captures? path).isSome = true ↔
      ∃ u v, path = u ++ v ∧ u ∈ (seqAll ps).language ∧ (v = [] ∨ ∃ query, v = '?' :: query) := by
  constructor
  · intro matched
    obtain ⟨s, member, ends⟩ := isSome_captures?_narrowed.mp matched
    rw [ways_start] at member
    obtain ⟨u, inside, text⟩ := (reads_language regular).sound _ s member
    have text : path = u ++ s.rest := text
    refine ⟨u, s.rest, text, inside, ?_⟩
    by_cases mark : s.rest.head? = some '?'
    · obtain ⟨query, rest⟩ := List.head?_eq_some_iff.mp mark
      exact .inr ⟨query, rest⟩
    · rw [ways_queryEnd_plain _ mark, Pattern.ways] at ends
      left
      by_contra shown
      have feed : s.rest ≠ ['\n'] := by
        intro same
        apply line
        rw [text, same]
        exact List.mem_append_right u (List.mem_singleton_self _)
      exact ends (if_neg (not_or.mpr ⟨shown, feed⟩))
  · rintro ⟨u, v, rfl, inside, rfl | ⟨query, rfl⟩⟩
    · rw [List.append_nil]
      exact (captures?_of_language regular inside).1
    · have rest : '\n' ∉ query := fun feed =>
        line (List.mem_append_right u (List.mem_cons_of_mem _ feed))
      exact (captures?_of_language regular inside).2 query rest

end Regular

theorem compile_default (template : Text) :
    (({} : Compiler).compile template).1.map (·.compiled) =
      (compileFresh standardHost {} template).1 :=
  (Compiler.faithful_of_empty rfl).result template

theorem compileFresh_spelled {template : Text} (balanced : unnested false template = true)
    (stars : starsNamed template = true) :
    ∃ ps, Regular (seqAll ps) ∧ (∀ u, u ∈ (seqAll ps).language ↔ Spells (pieces template) u) ∧
      (narrowed (.start :: ps)).slots = (tokens template).length + 1 ∧
      (compileFresh standardHost {} template).1 =
        .ok ⟨template, ⟨narrowedSource template, narrowed (.start :: ps)⟩, tokens template⟩ := by
  have star := star_not_mem_pieces stars
  obtain ⟨sections, split, plain⟩ := (sectioned_pieces template star).1 balanced
  refine ⟨sectionPatterns queryRun 0 sections, regular_sections sections 0, ?_, ?_,
    compileFresh_sections split plain⟩
  · intro u
    rw [mem_language_sections plain, split]
  · rw [slots_narrowed]
    change (seqAll (narrowedParts sections)).slots + 1 = _
    rw [slots_narrowedParts, ← split]
    rfl

/-- A template whose parentheses are balanced and not nested compiles, with a slot for each token
and one for the query, and on one line accepts what it spells, alone or before a query. -/
theorem compile_accepts_spelled (template : Text) (balanced : unnested false template = true)
    (stars : starsNamed template = true) :
    ∃ object, (({} : Compiler).compile template).1 = .ok object ∧
      object.compiled.matcher.pattern.slots = (tokens template).length + 1 ∧
      ∀ path, '\n' ∉ path → (object.compiled.accepts path = true ↔
        ∃ u v, path = u ++ v ∧ Spells (pieces template) u ∧
          (v = [] ∨ ∃ query, v = '?' :: query)) := by
  obtain ⟨ps, regular, spelled, slots, fresh⟩ := compileFresh_spelled balanced stars
  obtain ⟨object, compiled, same⟩ := map_eq_ok_iff.mp ((compile_default template).trans fresh)
  refine ⟨object, compiled, ?_, ?_⟩
  · rw [same]
    exact slots
  · intro path line
    have accepts : object.compiled.accepts path =
        ((narrowed (.start :: ps)).captures? path).isSome := by
      rw [same]
      rfl
    rw [accepts, captures?_iff_language regular line]
    simp only [spelled]

def docsTemplate : Text := "docs(/:section)/what?*path".toList

theorem compile_accepts_spelled_docs :
    unnested false docsTemplate = true ∧ starsNamed docsTemplate = true ∧
      ∃ object, (({} : Compiler).compile docsTemplate).1 = .ok object ∧
        object.compiled.matcher.pattern.slots = (tokens docsTemplate).length + 1 ∧
        ∀ path, '\n' ∉ path → (object.compiled.accepts path = true ↔
          ∃ u v, path = u ++ v ∧ Spells (pieces docsTemplate) u ∧
            (v = [] ∨ ∃ query, v = '?' :: query)) := by
  have balanced : unnested false docsTemplate = true := by decide
  have stars : starsNamed docsTemplate = true := by decide +kernel
  exact ⟨balanced, stars, compile_accepts_spelled docsTemplate balanced stars⟩

end FragmentRouting.Template
