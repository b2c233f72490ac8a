import FragmentRouting.Proofs.Pattern.Groups
import FragmentRouting.Proofs.Template.Inclusion

/-!
What the slots of a compiled template belong to. Each token has one, and so has each parenthesis
that starts no optional part, because another one stands around it or because its line ends first;
the query has the last one.
-/
namespace FragmentRouting.Template

open Pattern (Covers Regular groups_seqAll_append groups_seqAll_cons seqAll)

/-- What takes a slot, if a lexeme does: a token, or a parenthesis that belongs to none. -/
def Lexeme.owner? : Lexeme → Option (Option Token)
  | .piece p => p.token?.map some
  | .opening true => some none
  | .opening false | .closing | .mark | .star => none

/-- What the slots of a template belong to, in their order. -/
def owners (template : Text) : List (Option Token) :=
  (lexemes false (pieces template)).filterMap Lexeme.owner?

theorem reduceOption_lexemes (inside : Bool) (ps : List Piece) :
    ((lexemes inside ps).filterMap Lexeme.owner?).reduceOption = ps.filterMap Piece.token? := by
  induction ps generalizing inside with
  | nil => rfl
  | cons p rest ih =>
      cases p with
      | token t =>
          have owner : (Lexeme.piece (.token t)).owner? = some (some t) := rfl
          rw [lexemes, List.filterMap_cons_some owner, List.reduceOption_cons_of_some, ih]
          rfl
      | literal c =>
          have skipped : (Piece.literal c :: rest).filterMap Piece.token? =
              rest.filterMap Piece.token? := rfl
          rw [lexemes, skipped]
          split
          · exact ih true
          split
          · exact ih false
          · rw [← ih inside, literalLexeme]
            split
            · exact List.reduceOption_cons_of_none _
            split
            · rfl
            split
            · rfl
            · rfl

theorem reduceOption_owners (template : Text) : (owners template).reduceOption = tokens template :=
  reduceOption_lexemes false (pieces template)

theorem owners_of_not_mem {template : Text} (tidy : none ∉ owners template) :
    owners template = (tokens template).map some := by
  have restored (os : List (Option Token)) (tidy : none ∉ os) : os = os.reduceOption.map some := by
    induction os with
    | nil => rfl
    | cons o os ih =>
        rw [List.mem_cons, not_or] at tidy
        cases o with
        | none => exact absurd rfl tidy.1
        | some t =>
            rw [List.reduceOption_cons_of_some, List.map_cons, ← ih tidy.2]
  rw [← reduceOption_owners]
  exact restored _ tidy

/-- There are more slots than tokens exactly if some parenthesis has one. -/
theorem length_owners_iff (template : Text) :
    (owners template).length = (tokens template).length ↔ none ∉ owners template := by
  rw [← reduceOption_owners]
  constructor
  · intro same stray
    have full := List.reduceOption_length_eq_iff.mp same.symm none stray
    cases full
  · intro tidy
    refine (List.reduceOption_length_eq_iff.mpr fun o member => ?_).symm
    exact Option.isSome_iff_ne_none.mpr fun nothing => tidy (nothing ▸ member)

/-- Whether a group may belong to an owner: the group of a token covers what stands for it. -/
def Owns : Option Token → Pattern → Prop
  | some t, body => body = (queryRun t.kind).body
  | none, _ => True

theorem filterMap_quantity (quantity : Quantity) :
    quantity.lexemes.filterMap Lexeme.owner? = [] := by
  cases quantity with
  | once | optional | any => rfl

theorem groups_applied (quantity : Quantity) (p : Pattern) :
    (quantity.applied p).groups = p.groups := by
  cases quantity with
  | once | optional | any => rfl

/-- The groups of a forest are those of its owners, with slots in their order. -/
theorem groups_patterns (forest : Forest) (slot : Nat) :
    ∃ bodies : List Pattern,
      List.Forall₂ Owns (forest.lexemes.filterMap Lexeme.owner?) bodies ∧
        (seqAll (forest.patterns queryRun slot)).groups = bodies.zipIdx slot := by
  induction forest generalizing slot with
  | nil => exact ⟨[], .nil, rfl⟩
  | piece p quantity rest ih =>
      obtain ⟨bodies, owned, groups⟩ := ih (slot + tokenCount [p])
      rw [Forest.lexemes, List.filterMap_cons, List.filterMap_append, filterMap_quantity,
        List.nil_append, Forest.patterns, groups_seqAll_cons, groups_applied, groups]
      cases p with
      | literal c => exact ⟨bodies, owned, rfl⟩
      | token t => exact ⟨(queryRun t.kind).body :: bodies, .cons rfl owned, rfl⟩
  | group captures quantity body rest ihBody ihRest =>
      obtain ⟨inner, ownedInner, groupsInner⟩ := ihBody (slot + captures.toNat)
      obtain ⟨outer, ownedOuter, groupsOuter⟩ := ihRest (slot + captures.toNat + body.slots)
      have size : inner.length = body.slots := by
        rw [← body.slots_patterns queryRun (slot + captures.toNat), ← Pattern.length_groups,
          groupsInner, List.length_zipIdx]
      have both : (seqAll (body.patterns queryRun (slot + captures.toNat))).groups ++
          outer.zipIdx (slot + captures.toNat + body.slots) =
            (inner ++ outer).zipIdx (slot + captures.toNat) := by
        rw [groupsInner, List.zipIdx_append, size]
      have owned := List.rel_append ownedInner ownedOuter
      rw [Forest.lexemes, List.filterMap_cons, List.filterMap_append, List.filterMap_cons,
        List.filterMap_append, filterMap_quantity, List.nil_append, Forest.patterns,
        groups_seqAll_cons, groups_applied, groupsOuter]
      cases captures with
      | true =>
          let whole := seqAll (body.patterns queryRun (slot + 1))
          exact ⟨whole :: (inner ++ outer), .cons trivial owned,
            congrArg (List.cons (whole, slot)) both⟩
      | false => exact ⟨inner ++ outer, owned, both⟩

def queryBody : Pattern :=
  .seq (.one (.single '?')) (.repeated 0 none .more (.one .exceptLineFeed))

theorem mem_language_queryBody {v : Text} (covered : v ∈ queryBody.language) :
    ∃ query, v = '?' :: query := by
  obtain ⟨mark, first, query, _, rfl⟩ := Language.mem_mul.mp covered
  obtain ⟨c, contains, rfl⟩ := mem_language_one.mp first
  rw [CharClass.single_contains_iff.mp contains]
  exact ⟨query, rfl⟩

theorem groups_queryPattern (forest : Forest) :
    ∃ bodies : List Pattern,
      List.Forall₂ Owns (forest.lexemes.filterMap Lexeme.owner?) bodies ∧
        forest.queryPattern.groups = (bodies ++ [queryBody]).zipIdx := by
  obtain ⟨bodies, owned, groups⟩ := groups_patterns forest 0
  refine ⟨bodies, owned, ?_⟩
  have size : (seqAll (.start :: forest.patterns queryRun 0)).slots = 0 + bodies.length := by
    rw [← Pattern.length_groups, groups_seqAll_cons, groups, List.length_append,
      List.length_zipIdx]
    rfl
  rw [Forest.queryPattern, narrowed, groups_seqAll_append, groups_seqAll_cons, groups, size,
    List.zipIdx_append]
  rfl

theorem captures_queryPattern {forest : Forest} {path : Text} {captures : List (Option Text)}
    (matched : forest.queryPattern.captures? path = some captures) :
    captures.length = forest.queryPattern.slots ∧ ∀ slot v, captures[slot]? = some (some v) →
      Covers forest.queryPattern.groups path slot v := by
  let ps := forest.patterns queryRun 0
  let last := queryPart (seqAll (.start :: ps)).slots
  have whole : forest.queryPattern = seqAll (.start :: ((ps ++ [last]) ++ [.finish])) := by
    rw [List.append_assoc]
    rfl
  have regular : Regular (seqAll (ps ++ [last])) := by
    rw [Pattern.regular_seqAll, List.forall_mem_append, List.forall_mem_singleton]
    have query : Regular last := ⟨nofun, trivial, nofun, trivial⟩
    exact ⟨Pattern.regular_seqAll.mp (regular_patterns queryRun_preference forest 0), query⟩
  have groups : (seqAll (ps ++ [last])).groups = forest.queryPattern.groups := by
    rw [whole, groups_seqAll_cons, groups_seqAll_append (ps ++ [last])]
    exact (List.append_nil _).symm
  rw [whole] at matched
  obtain ⟨length, covers⟩ := Pattern.captures_anchored regular matched
  rw [← Pattern.length_groups, groups, Pattern.length_groups] at length
  rw [groups] at covers
  exact ⟨length, covers⟩

section Captures

variable {template path : Text} {compiled : Compiled} {captures : List (Option Text)}

theorem groups_compiled (fresh : (compileFresh standardHost {} template).1 = .ok compiled) :
    ∃ bodies : List Pattern, List.Forall₂ Owns (owners template) bodies ∧
      compiled.matcher.pattern.groups = (bodies ++ [queryBody]).zipIdx := by
  obtain ⟨forest, same, _, rfl⟩ := compileFresh_forest fresh
  rw [owners, same]
  exact groups_queryPattern forest

theorem captured (fresh : (compileFresh standardHost {} template).1 = .ok compiled)
    (matched : compiled.matcher.captures? path = some captures) {bodies : List Pattern}
    (groups : compiled.matcher.pattern.groups = bodies.zipIdx) {slot : Nat} {body : Pattern}
    (listed : bodies[slot]? = some body) :
    captures.length = bodies.length ∧
      (captures[slot]? = some none ∨
        ∃ v, captures[slot]? = some (some v) ∧ v ∈ body.language ∧ v <:+: path) := by
  obtain ⟨forest, _, _, rfl⟩ := compileFresh_forest fresh
  obtain ⟨length, covers⟩ := captures_queryPattern matched
  have groups : forest.queryPattern.groups = bodies.zipIdx := groups
  rw [← Pattern.length_groups, groups, List.length_zipIdx] at length
  refine ⟨length, ?_⟩
  have within : slot < captures.length := length ▸ (List.getElem?_eq_some_iff.mp listed).1
  cases kept : captures[slot]? with
  | none => exact absurd (List.getElem?_eq_none_iff.mp kept) (not_le.mpr within)
  | some capture =>
      cases capture with
      | none => exact .inl rfl
      | some v =>
          obtain ⟨other, member, covered, part⟩ := covers slot v kept
          rw [groups, List.mk_mem_zipIdx_iff_getElem?, listed, Option.some.injEq] at member
          exact .inr ⟨v, rfl, member ▸ covered, part⟩

/-- The captures of a compiled template: one for each owner of a slot, and one for the query. What
a token captures may stand for it. -/
theorem captures_compiled (fresh : (compileFresh standardHost {} template).1 = .ok compiled)
    (matched : compiled.matcher.captures? path = some captures) :
    captures.length = (owners template).length + 1 ∧
      (∀ (slot : Nat) (token : Token), (owners template)[slot]? = some (some token) →
        captures[slot]? = some none ∨
          ∃ v, captures[slot]? = some (some v) ∧ token.kind.Admits v ∧ v <:+: path) ∧
      (captures.getLast? = some none ∨
        ∃ query, captures.getLast? = some (some ('?' :: query)) ∧ '?' :: query <:+: path) := by
  obtain ⟨bodies, owned, groups⟩ := groups_compiled fresh
  have size : bodies.length = (owners template).length := owned.length_eq.symm
  have last : (bodies ++ [queryBody])[bodies.length]? = some queryBody :=
    List.getElem?_concat_length
  obtain ⟨length, query⟩ := captured fresh matched groups last
  rw [List.length_append, List.length_singleton] at length
  refine ⟨size ▸ length, ?_, ?_⟩
  · intro slot token owner
    obtain ⟨within, here⟩ := List.getElem?_eq_some_iff.mp owner
    have within' : slot < bodies.length := size ▸ within
    have belongs := owned.get within within'
    rw [List.get_eq_getElem, here] at belongs
    have body : (bodies ++ [queryBody])[slot]? = some (queryRun token.kind).body := by
      rw [List.getElem?_append_left within', List.getElem?_eq_getElem within']
      exact congrArg some belongs
    rcases (captured fresh matched groups body).2 with missing | ⟨v, kept, covered, part⟩
    · exact .inl missing
    · have covered : v ∈ (piecePattern queryRun slot (.token token)).language := covered
      exact .inr ⟨v, kept, mem_language_token.mp covered, part⟩
  · rw [List.getLast?_eq_getElem?, length, Nat.add_sub_cancel]
    rcases query with missing | ⟨v, kept, covered, part⟩
    · exact .inl missing
    · obtain ⟨text, rfl⟩ := mem_language_queryBody covered
      exact .inr ⟨text, kept, part⟩

end Captures

end FragmentRouting.Template
