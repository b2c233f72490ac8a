import FragmentRouting.Proofs.Pattern.Reader
import FragmentRouting.Proofs.Template.Pieces
import FragmentRouting.Proofs.Template.Query
import FragmentRouting.Proofs.Template.Reading

namespace FragmentRouting.Template

open Pattern (seqAll Reader)

theorem ofSource_eq_ok_iff {source : Text} {matcher : Matcher} :
    Matcher.ofSource source = .ok matcher ↔
      ∃ p, Pattern.parse source = .ok p ∧ matcher = ⟨source, p⟩ := by
  rw [Matcher.ofSource]
  cases Pattern.parse source with
  | error fault => exact ⟨nofun, fun ⟨_, other, _⟩ => absurd other nofun⟩
  | ok p =>
      constructor
      · intro same
        exact ⟨p, rfl, (Except.ok.inj same).symm⟩
      · rintro ⟨_, same, rfl⟩
        rw [Except.ok.inj same]

theorem compileFresh_eq_ok_iff {template : Text} {compiled : Compiled} :
    (compileFresh standardHost {} template).1 = .ok compiled ↔
      (∃ host, Pattern.parse (hostSource template) = .ok host) ∧
        ∃ p, Pattern.parse (narrowedSource template) = .ok p ∧
          compiled = ⟨template, ⟨narrowedSource template, p⟩, tokens template⟩ := by
  rw [compileFresh, standardHost, Matcher.ofSource]
  cases host : Pattern.parse (hostSource template) with
  | error fault => exact ⟨nofun, fun ⟨⟨_, other⟩, _⟩ => absurd other nofun⟩
  | ok p =>
      simp only [compileFrom, hostFlaw?_hostSource, narrow_hostSource, Matcher.ofSource]
      cases Pattern.parse (narrowedSource template) with
      | error fault => exact ⟨nofun, fun ⟨_, _, other, _⟩ => absurd other nofun⟩
      | ok q =>
          constructor
          · intro h
            exact ⟨⟨p, rfl⟩, q, rfl, (Except.ok.inj h).symm⟩
          · rintro ⟨_, q', same, rfl⟩
            rw [Except.ok.inj same]
            rfl

theorem adds_queryKinds (slots : Nat) :
    Pattern.Adds queryKinds slots [.repeated (queryPart slots)] (slots + 1) := by
  have line := (Pattern.Adds.one (n := slots + 1) .exceptLineFeed).quantified 0 none .more
  have text := (Pattern.Adds.one (.single '?')).append line
  exact (text.group true).quantified 0 (some 1) .more

theorem stops_literalKind {c d : Char} (differs : d ≠ c) :
    (literalKind d).Stops c := by
  rw [literalKind]
  split
  · trivial
  · split
    · trivial
    · split
      · intro same
        cases same
      · rw [Pattern.Token.Stops, ← Bool.not_eq_true]
        intro inside
        exact differs (CharClass.single_contains_iff.mp inside).symm

theorem stops_queryRun (kind : TokenKind) : ∀ k ∈ (queryRun kind).kinds, k.Stops '?' := by
  simp only [Run.kinds, List.forall_mem_cons]
  exact ⟨trivial, queryRun_mark kind, queryRun_preference kind, trivial, List.forall_mem_nil _⟩

theorem stops_sourceKinds {ps : List Piece} (plain : .literal '?' ∉ ps) (inside : Bool) :
    ∀ k ∈ sourceKinds queryRun inside ps, k.Stops '?' := by
  induction ps generalizing inside with
  | nil => exact List.forall_mem_nil _
  | cons p rest ih =>
      have others := ih fun member => plain (List.mem_cons_of_mem p member)
      cases p with
      | token t =>
          intro k member
          rcases List.mem_append.mp member with here | member
          · exact stops_queryRun t.kind k here
          · exact others inside k member
      | literal c =>
          have differs : c ≠ '?' := by
            intro same
            rw [same] at plain
            exact plain List.mem_cons_self
          rw [sourceKinds]
          split
          · exact List.forall_mem_cons.mpr ⟨trivial, others true⟩
          · split
            · have lazy : Preference.more ≠ .most := by decide
              exact List.forall_mem_cons.mpr
                ⟨trivial, List.forall_mem_cons.mpr ⟨lazy, others false⟩⟩
            · exact List.forall_mem_cons.mpr ⟨stops_literalKind differs, others inside⟩

theorem parse_unqueried {template : Text} (plain : '?' ∉ template) {p : Pattern}
    (parsed : Pattern.parse (narrowedSource template) = .ok p) :
    ∃ parts, Unqueried parts ∧ p = narrowed parts := by
  obtain ⟨front, back, fronts, backs, read⟩ :=
    Pattern.parse_anchored (kinds_narrowedSource template)
  obtain ⟨r, run, finished⟩ := (read p).mp parsed
  have stops : ∀ token ∈ front, token.1.Stops '?' := by
    intro token member
    have listed : token.1 ∈ _ := List.mem_map_of_mem member
    rw [fronts] at listed
    exact stops_sourceKinds (fun mark => plain (mem_of_literal_mem_pieces mark)) false _ listed
  have start : (Reader.push (.anchor .start) {}).Stops '?' :=
    Reader.stops_empty.push _ trivial trivial rfl
  have before := start.run stops run
  have tail := (adds_queryKinds r.slots).append Pattern.Adds.finish
  rw [tail r.level r.groups back backs] at finished
  obtain ⟨level, groups, slots⟩ := r
  cases groups with
  | cons g rest => cases finished
  | nil =>
      have size : (seqAll level.patterns).slots = slots := by
        rw [Pattern.Level.slots_patterns]
        exact before.taken
      have parts := before.level.patterns
      refine ⟨level.patterns, ⟨?_, ?_⟩, ?_⟩
      · exact Pattern.stops_seqAll.mpr fun p member => (parts p member).1
      · rw [size]
        exact Pattern.slotsIn_seqAll.mpr fun p member => (parts p member).2
      · rw [narrowed, size, ← Except.ok.inj finished, Pattern.Level.pattern_of_choices]
        · rw [Pattern.Level.patterns, List.reverse_append, List.map_append, List.reverse_reverse]
          rfl
        · exact before.level.choices

/-- The matcher of a template without a question mark keeps queries out of all captures but the
last. -/
theorem compiled_unqueried {template : Text} (plain : '?' ∉ template) {compiled : Compiled}
    (h : (compileFresh standardHost {} template).1 = .ok compiled) :
    ∃ parts, Unqueried parts ∧ compiled.matcher.pattern = narrowed parts := by
  obtain ⟨_, p, parsed, rfl⟩ := compileFresh_eq_ok_iff.mp h
  exact parse_unqueried plain parsed

end FragmentRouting.Template
