import FragmentRouting.Proofs.Pattern.Token
import FragmentRouting.Proofs.Template.Source
import FragmentRouting.Proofs.Text.Basic

namespace FragmentRouting.Template

open Pattern (Ends kinds tokenAt)

/-- The group for a token of a template: how many characters of which class it covers. -/
structure Run where
  cls : CharClass
  least : Nat
  preference : Preference

/-- The tokens of a run in its group. -/
def Run.kinds (run : Run) : List Pattern.Token :=
  [.opening true, .one run.cls, .quantifier run.least none run.preference, .closing]

def hostRun : TokenKind → Run
  | .named => ⟨⟨[.range '/' '/'], true⟩, 1, .more⟩
  | .splat => ⟨.exceptLineFeed, 0, .fewer⟩

def queryRun : TokenKind → Run
  | .named => ⟨⟨[.range '/' '/', .range '?' '?'], true⟩, 0, .more⟩
  | .splat => ⟨⟨[.range '?' '?'], true⟩, 0, .more⟩

theorem hostRun_preference (kind : TokenKind) : (hostRun kind).preference ≠ .most := by
  cases kind <;> decide

theorem queryRun_preference (kind : TokenKind) : (queryRun kind).preference ≠ .most := by
  cases kind <;> decide

theorem queryRun_mark (kind : TokenKind) : (queryRun kind).cls.contains '?' = false := by
  cases kind <;> decide

/-- Whether shapes are the written forms of runs. -/
structure Writes (shape : TokenKind → Text) (run : TokenKind → Run) : Prop where
  opens : ∀ kind, (shape kind).head? = some '('
  kinds : ∀ kind t, kinds (shape kind ++ t) = (run kind).kinds ++ kinds t

theorem writes_host : Writes hostShape hostRun where
  opens kind := by cases kind <;> rfl
  kinds kind t := by cases kind <;> rfl

theorem writes_query : Writes queryShape queryRun where
  opens kind := by cases kind <;> rfl
  kinds kind t := by cases kind <;> rfl

def literalKind (c : Char) : Pattern.Token :=
  if c = '(' then .opening true
  else if c = ')' then .closing
  else if c = '*' then .quantifier 0 none .more
  else .one (.single c)

/-- The tokens of some pieces, `inside` an optional part or not. -/
def sourceKinds (run : TokenKind → Run) : Bool → List Piece → List Pattern.Token
  | _, [] => []
  | inside, .token t :: rest => (run t.kind).kinds ++ sourceKinds run inside rest
  | inside, .literal c :: rest =>
    if c = '(' ∧ inside = false ∧ closes rest = true then
      .opening false :: sourceKinds run true rest
    else if c = ')' ∧ inside = true then
      .closing :: .quantifier 0 (some 1) .more :: sourceKinds run false rest
    else literalKind c :: sourceKinds run inside rest

theorem isAlphanum_of_isSpecial {c : Char} (special : isSpecial c = true) :
    c.isAlphanum = false := by
  rw [isSpecial, Bool.or_eq_true] at special
  rcases special with blank | listed
  · rw [← Bool.not_eq_true, Text.isAlphanum_iff]
    simp only [Text.isBlank, Text.blankRanges, Text.inRanges] at blank
    grind
  · have none_ : ['-', '\x7b', '\x7d', '[', ']', '+', '?', '.', ',', '\\', '^', '$', '|', '#'].all
        (fun d => !d.isAlphanum) = true := by decide
    have other := List.all_eq_true.mp none_ c (List.contains_iff_mem.mp listed)
    rw [Bool.not_eq_true'] at other
    exact other

theorem literalKind_of_isSpecial {c : Char} (special : isSpecial c = true) :
    literalKind c = .one (.single c) := by
  rw [literalKind, if_neg (isSpecial_of_ne_nil special (by decide)),
    if_neg (isSpecial_of_ne_nil special (by decide)),
    if_neg (isSpecial_of_ne_nil special (by decide))]

theorem tokenAt_ordinary {c : Char} (ordinary : isSpecial c = false) {t : Text} (ends : Ends t) :
    tokenAt c t = (literalKind c, 0, 0) := by
  by_cases opening : c = '('
  · rw [opening]
    exact Pattern.tokenAt_opening ends.fewer
  · by_cases closing : c = ')'
    · rw [closing]
      rfl
    · by_cases star : c = '*'
      · rw [star]
        exact Pattern.tokenAt_star ends
      · rw [literalKind, if_neg opening, if_neg closing, if_neg star]
        unfold tokenAt
        split
        case h_5 => exact absurd rfl closing
        case h_6 => exact absurd rfl opening
        case h_7 => exact absurd rfl star
        case h_13 => rfl
        all_goals exact absurd ordinary (by decide)

theorem tokenAt_escapeChar (c : Char) {t : Text} (ends : Ends t) :
    ∃ first more, escapeChar c = first :: more ∧
      tokenAt first (more ++ t) = (literalKind c, 0, more.length) := by
  rw [escapeChar]
  split
  next special =>
      rw [literalKind_of_isSpecial special]
      exact ⟨_, _, rfl, Pattern.tokenAt_escape (isAlphanum_of_isSpecial special) t⟩
  next ordinary =>
      exact ⟨_, _, rfl, tokenAt_ordinary (Bool.eq_false_iff.mpr ordinary) ends⟩

theorem kinds_escapeChar (c : Char) {t : Text} (ends : Ends t) :
    kinds (escapeChar c ++ t) = literalKind c :: kinds t := by
  obtain ⟨first, more, same, read⟩ := tokenAt_escapeChar c ends
  rw [same]
  exact Pattern.kinds_cons read

theorem ends_sourceFrom {shape : TokenKind → Text} {run : TokenKind → Run}
    (writes : Writes shape run) (inside : Bool) (ps : List Piece) {tail : Text}
    (ends : Ends tail) : Ends (sourceFrom shape inside ps ++ tail) :=
  ⟨head?_sourceFrom writes.opens (by decide) (by decide) inside ps ends.fewer,
    head?_sourceFrom writes.opens (by decide) (by decide) inside ps ends.most⟩

theorem kinds_sourceFrom {shape : TokenKind → Text} {run : TokenKind → Run}
    (writes : Writes shape run) (inside : Bool) (ps : List Piece) {tail : Text}
    (ends : Ends tail) :
    kinds (sourceFrom shape inside ps ++ tail) = sourceKinds run inside ps ++ kinds tail := by
  have follows (inside : Bool) (rest : List Piece) : Ends (sourceFrom shape inside rest ++ tail) :=
    ends_sourceFrom writes inside rest ends
  induction ps generalizing inside with
  | nil => rfl
  | cons p rest ih =>
      cases p with
      | token t =>
          rw [sourceFrom, sourceKinds, List.append_assoc, List.append_assoc, writes.kinds, ih]
      | literal c =>
          rw [sourceFrom, sourceKinds]
          split
          · have opening (t : Text) : kinds ('(' :: '?' :: ':' :: t) = .opening false :: kinds t :=
              rfl
            exact (opening _).trans (congrArg (.opening false :: ·) (ih true))
          · split
            · have mark : kinds ('?' :: (sourceFrom shape false rest ++ tail)) =
                  .quantifier 0 (some 1) .more :: kinds (sourceFrom shape false rest ++ tail) :=
                Pattern.kinds_cons (u := []) (Pattern.tokenAt_mark (follows false rest))
              have closing (t : Text) : kinds (')' :: t) = .closing :: kinds t := rfl
              rw [ih false] at mark
              exact (closing _).trans (congrArg (.closing :: ·) mark)
            · rw [List.append_assoc, kinds_escapeChar c (follows inside rest), ih inside]
              rfl

/-- The tokens of the host's source for a template. -/
theorem kinds_hostSource (template : Text) :
    kinds (hostSource template) =
      .start :: (sourceKinds hostRun false (pieces template) ++ [.finish]) := by
  have start (t : Text) : kinds ('^' :: t) = .start :: kinds t := rfl
  have ends : Ends ['$'] := ⟨by decide, by decide⟩
  rw [hostSource, start, kinds_sourceFrom writes_host false _ ends]
  rfl

/-- The tokens of the group for the query. -/
def queryKinds : List Pattern.Token :=
  [.opening true, .one (.single '?'), .one .exceptLineFeed, .quantifier 0 none .more, .closing,
    .quantifier 0 (some 1) .more]

theorem kinds_narrowedSource (template : Text) :
    kinds (narrowedSource template) =
      .start :: (sourceKinds queryRun false (pieces template) ++ (queryKinds ++ [.finish])) := by
  have start (t : Text) : kinds ('^' :: t) = .start :: kinds t := rfl
  have ends : Ends (queryGroup ++ ['$']) := ⟨by decide, by decide⟩
  have query : kinds (queryGroup ++ ['$']) = queryKinds ++ [.finish] := by decide
  rw [narrowedSource, start, List.append_assoc, kinds_sourceFrom writes_query false _ ends, query]

end FragmentRouting.Template
