import FragmentRouting.Proofs.Template.Segments
import FragmentRouting.Proofs.Template.Words

/-!
The captures of the host's pattern and of the compiled template on templates of segments. Narrowing
makes splats greedy and lets named tokens be empty, but each way through the host's pattern is one
through the narrowed pattern with the same captures, and a path is filled in one way only.
-/
namespace FragmentRouting.Template

open Pattern (Adds Place reads_language seqAll ways_start)

def hostPieces (ps : List Piece) : Pattern :=
  seqAll (.start :: (piecePatterns hostRun 0 ps ++ [.finish]))

theorem standardHost_pieces {template : Text} (plain : ∀ p ∈ pieces template, p.Plain) :
    standardHost template = .ok ⟨hostSource template, hostPieces (pieces template)⟩ := by
  have kinds := sourceKinds_body hostRun plain false []
  rw [List.append_nil, sourceKinds, List.append_nil] at kinds
  have all := (Adds.start.append (adds_pieces hostRun (pieces template) 0)).append Adds.finish
  rw [← kinds] at all
  have patterns : ((piecePatterns hostRun 0 (pieces template)).map Pattern.Part.plain).map
      Pattern.Part.pattern = piecePatterns hostRun 0 (pieces template) := by
    rw [List.map_map]
    exact List.map_id _
  rw [standardHost, Matcher.ofSource, Pattern.parse_of_adds (kinds_hostSource template) all,
    List.map_append, List.map_append, patterns]
  rfl

theorem mem_queryWays_of_piece {p : Piece} {slot : Nat} {s s' : Place} (plain : '?' ∉ s.rest)
    (member : s' ∈ (piecePattern hostRun slot p).ways s) :
    s' ∈ (piecePattern queryRun slot p).ways s := by
  cases p with
  | literal c => exact member
  | token t =>
      obtain ⟨s₁, reached, rfl⟩ := List.mem_map.mp member
      have reached : s₁ ∈ (queryRun t.kind).body.ways s := by
        refine Pattern.mem_ways_of_language (p := (hostRun t.kind).body)
          (q := (queryRun t.kind).body) ⟨hostRun_preference t.kind, trivial⟩
          ⟨queryRun_preference t.kind, trivial⟩ trivial trivial reached ?_
        intro u inside text
        refine within_piece slot (.token t) u inside fun mark => plain ?_
        rw [text]
        exact List.mem_append_left _ mark
      exact List.mem_map.mpr ⟨s₁, reached, rfl⟩

/-- A way through the host's pattern is one through the narrowed pattern. -/
theorem mem_queryWays {ps : List Piece} {slot : Nat} {s s' : Place} (plain : '?' ∉ s.rest)
    (member : s' ∈ (seqAll (piecePatterns hostRun slot ps)).ways s) :
    s' ∈ (seqAll (piecePatterns queryRun slot ps)).ways s := by
  induction ps generalizing slot s with
  | nil => exact member
  | cons p ps ih =>
      rw [piecePatterns, Pattern.ways_seqAll_cons, List.mem_flatMap] at member ⊢
      obtain ⟨s₁, first, others⟩ := member
      have plain' : '?' ∉ s₁.rest := by
        obtain ⟨passed, text, _⟩ := Pattern.ways_precedes _ s s₁ first
        rw [text, List.mem_append, not_or] at plain
        exact plain.2
      exact ⟨s₁, mem_queryWays_of_piece plain first, ih plain' others⟩

section Captures

variable {ps : List Piece} {path : Text} {captures : List (Option Text)}

theorem fills_of_host (plain : '?' ∉ path) (line : '\n' ∉ path)
    (matched : (hostPieces ps).captures? path = some captures) :
    ∃ values, Fills ps values path ∧ captures = values.map some := by
  rw [hostPieces, Pattern.captures?_anchored, Option.map_eq_some_iff] at matched
  obtain ⟨s, found, rfl⟩ := matched
  have reached := List.mem_of_find?_eq_some found
  have ended := List.find?_some (p := fun s : Place => s.rest = [] ∨ s.rest = ['\n']) found
  rw [decide_eq_true_iff] at ended
  obtain ⟨values, u, fills, text, same⟩ := fills_of_ways (mem_queryWays plain reached)
  have text : path = u ++ s.rest := text
  have nothing : s.rest = [] := by
    refine ended.resolve_right fun feed => line ?_
    rw [text, feed]
    exact List.mem_append_right u (List.mem_singleton_self _)
  rw [nothing, List.append_nil] at text
  refine ⟨values, text ▸ fills, ?_⟩
  have whole := putAll_append [] values []
  rw [List.append_nil, List.append_nil] at whole
  rw [same, Place.ofText, slots_piecePatterns, ← fills.length]
  exact whole

/-- What the compiled template captures from a path accounts for all of it: texts that fill the
pieces, then a query if there is one, and a line feed at most behind that. -/
theorem fills_of_captures?
    (matched : (narrowed (.start :: piecePatterns queryRun 0 ps)).captures? path =
      some captures) :
    ∃ values u query rest, Fills ps values u ∧
      captures = values.map some ++ [Option.map ('?' :: ·) query] ∧
      path = u ++ (Option.map ('?' :: ·) query).getD [] ++ rest ∧
      (rest = [] ∨ rest = ['\n']) := by
  obtain ⟨s, s', reached, behind, rfl⟩ := ways_of_captures? matched
  rw [slots_pieces] at reached behind
  obtain ⟨values, u, fills, text, same⟩ := fills_of_ways reached
  have text : path = u ++ s.rest := text
  -- The tokens have filled all slots but the last, which only a query can fill.
  have own : s.captures = values.map some ++ [none] := by
    rw [same, ← fills.length, Place.ofText, List.replicate_succ']
    exact putAll_append [] values [none]
  obtain ⟨ends, query⟩ := mem_ways_queryEnd behind
  rcases query with rfl | ⟨query, _, queried, captured⟩
  · refine ⟨values, u, none, s'.rest, fills, own, ?_, ends⟩
    rw [text, Option.map_none, Option.getD_none, List.append_nil]
  · refine ⟨values, u, some query, s'.rest, fills, ?_, ?_, ends⟩
    · have size : s.captures.length = tokenCount ps + 1 := by
        rw [own, ← fills.length, List.length_append, List.length_map]
        rfl
      rw [captured, set_last _ _ size, own, List.dropLast_concat, Option.map_some]
    · rw [text, queried, Option.map_some, Option.getD_some, List.append_assoc, List.cons_append]

theorem fills_of_query (plain : '?' ∉ path) (line : '\n' ∉ path)
    (matched : (narrowed (.start :: piecePatterns queryRun 0 ps)).captures? path =
      some captures) :
    ∃ values, Fills ps values path ∧ captures = values.map some ++ [none] := by
  obtain ⟨values, u, query, rest, fills, rfl, rfl, ends⟩ := fills_of_captures? matched
  obtain rfl : rest = [] := by
    refine ends.resolve_right fun feed => line ?_
    rw [feed]
    exact List.mem_append_right _ (List.mem_singleton_self _)
  cases query with
  | none =>
      rw [Option.map_none, Option.getD_none, List.append_nil, List.append_nil]
      exact ⟨values, fills, rfl⟩
  | some query =>
      refine absurd ?_ plain
      exact List.mem_append_left _ (List.mem_append_right _ List.mem_cons_self)

end Captures

theorem TokenKind.Admits.host {kind : TokenKind} {v : Text} (h : kind.Admits v) (line : '\n' ∉ v)
    (shown : kind = .named → v ≠ []) : kind.HostAdmits v := by
  cases kind with
  | named => exact ⟨shown rfl, h.1⟩
  | splat => exact line

/-- A filling that leaves no named token empty is covered by the host's pattern. -/
theorem Fills.mem_hostLanguage {ps : List Piece} {values : List Text} {u : Text}
    (fills : Fills ps values u) (slot : Nat) (line : '\n' ∉ u)
    (shown : ∀ pair ∈ (ps.filterMap Piece.token?).zip values, pair.1.kind = .named → pair.2 ≠ []) :
    u ∈ (seqAll (piecePatterns hostRun slot ps)).language := by
  induction fills generalizing slot with
  | nil => exact Language.nil_mem_one
  | literal others ih =>
      rw [piecePatterns, Pattern.language_seqAll_cons]
      have line := fun feed => line (List.mem_cons_of_mem _ feed)
      exact Language.append_mem_mul (mem_language_literal.mpr rfl) (ih _ line shown)
  | token admits others ih =>
      obtain ⟨here, shown⟩ := List.forall_mem_cons.mp shown
      rw [List.mem_append, not_or] at line
      rw [piecePatterns, Pattern.language_seqAll_cons]
      have covers := admits.host line.1 here
      exact Language.append_mem_mul (mem_language_hostToken.mpr covers) (ih _ line.2 shown)

theorem Fills.isSome_hostPieces {ps : List Piece} {values : List Text} {path : Text}
    (fills : Fills ps values path) (line : '\n' ∉ path)
    (shown : ∀ pair ∈ (ps.filterMap Piece.token?).zip values, pair.1.kind = .named → pair.2 ≠ []) :
    ((hostPieces ps).captures? path).isSome = true := by
  rw [hostPieces, isSome_captures?_anchored]
  have inside := fills.mem_hostLanguage 0 line shown
  obtain ⟨s, reached, nothing⟩ :=
    (reads_language (regular_pieces hostRun_preference ps 0)).complete
      (s := Place.ofText (seqAll (piecePatterns hostRun 0 ps)).slots path) inside
      (List.append_nil path).symm
  exact ⟨s, reached, .inl nothing⟩

/-- On a template of segments the narrowed pattern captures what the host captures. -/
theorem Segmented.captures?_narrowed {template path : Text} (segmented : Segmented template)
    (unmarked : '?' ∉ path) (line : '\n' ∉ path) {captures : List (Option Text)}
    (matched : (hostPieces (pieces template)).captures? path = some captures) :
    (narrowed (.start :: piecePatterns queryRun 0 (pieces template))).captures? path =
      some (captures ++ [none]) := by
  obtain ⟨values, fills, rfl⟩ := fills_of_host unmarked line matched
  exact captures?_of_fills fills (fun others filled => segmented.fills_unique filled fills)
    unmarked fun feed => line (List.mem_of_getLast? feed)

/-- For a template of segments and a path on one line without a question mark, what the host
captures is what the compiled template captures before the query, and conversely if no named
capture is empty. -/
theorem captures_as_host {template : Text} (segmented : Segmented template) :
    ∃ host object, standardHost template = .ok host ∧
      (({} : Compiler).compile template).1 = .ok object ∧
      ∀ path : Text, '?' ∉ path → '\n' ∉ path →
        (∀ captures, host.captures? path = some captures →
          object.compiled.matcher.captures? path = some (captures ++ [none])) ∧
        ∀ captures, object.compiled.matcher.captures? path = some (captures ++ [none]) →
          (∀ pair ∈ (tokens template).zip captures,
            pair.1.kind = .named → pair.2 ≠ some []) →
          host.captures? path = some captures := by
  have plain (p : Piece) (member : p ∈ pieces template) : p.Plain :=
    (segmented.ordinary p member).1
  have fresh := compileFresh_pieces plain
  obtain ⟨object, compiled, same⟩ := map_eq_ok_iff.mp ((compile_default template).trans fresh)
  refine ⟨_, object, standardHost_pieces plain, compiled, ?_⟩
  intro path unmarked line
  rw [same]
  refine ⟨fun captures => segmented.captures?_narrowed unmarked line, ?_⟩
  intro captures matched shown
  obtain ⟨values, fills, split⟩ := fills_of_query unmarked line matched
  obtain ⟨rfl, _⟩ := List.append_inj' split rfl
  -- A named capture of the host has a character, of the compiled template it may have none.
  have accepted : ((hostPieces (pieces template)).captures? path).isSome = true := by
    refine fills.isSome_hostPieces line fun pair member named empty => ?_
    refine shown (pair.1, some pair.2) ?_ named (congrArg some empty)
    rw [List.zip_map_right]
    exact List.mem_map.mpr ⟨pair, member, rfl⟩
  -- What the host captures is captured by the compiled template too, which captures only one thing.
  obtain ⟨captures, matched'⟩ := Option.isSome_iff_exists.mp accepted
  have both := segmented.captures?_narrowed unmarked line matched'
  have agree : values.map some = captures :=
    (List.append_inj' (Option.some.inj (matched.symm.trans both)) rfl).1
  rw [agree]
  exact matched'

def ownerTemplate : Text := "files/:owner/*path".toList

theorem segmented_owner : Segmented ownerTemplate := by
  have files : Segment "files".toList := .literal (by decide +kernel) (by simp)
  have owner : Segment (Token.text ⟨.named, "owner".toList⟩) :=
    .named ⟨by decide, List.all_eq_true.mp (by decide +kernel)⟩
  have path : Segmented (Token.text ⟨.splat, "path".toList⟩) :=
    .splat ⟨by decide, List.all_eq_true.mp (by decide +kernel)⟩
  exact .slash files (.slash owner path)

theorem captures_as_host_owner :
    let path := "files/ann/a/b".toList
    let captures := [some "ann".toList, some "a/b".toList]
    Segmented ownerTemplate ∧ '?' ∉ path ∧ '\n' ∉ path ∧
      (∀ pair ∈ (tokens ownerTemplate).zip captures,
        pair.1.kind = .named → pair.2 ≠ some []) ∧
      ∃ host object, standardHost ownerTemplate = .ok host ∧
        (({} : Compiler).compile ownerTemplate).1 = .ok object ∧
        host.captures? path = some captures ∧
        object.compiled.matcher.captures? path = some (captures ++ [none]) := by
  intro path captures
  have unmarked : '?' ∉ path := by decide
  have line : '\n' ∉ path := by decide
  have shown : ∀ pair ∈ (tokens ownerTemplate).zip captures,
      pair.1.kind = .named → pair.2 ≠ some [] := by
    decide +kernel
  have matched : (standardHost ownerTemplate).toOption.bind (·.captures? path) = some captures := by
    decide +kernel
  obtain ⟨host, object, hosted, compiled, agree⟩ := captures_as_host segmented_owner
  rw [hosted] at matched
  obtain ⟨there, back⟩ := agree path unmarked line
  have captured := there captures matched
  exact ⟨segmented_owner, unmarked, line, shown, host, object, hosted, compiled,
    back captures captured shown, captured⟩

end FragmentRouting.Template
