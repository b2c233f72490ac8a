import FragmentRouting.Proofs.Template.Pieces
import FragmentRouting.Proofs.Template.Source
import FragmentRouting.Proofs.Text.Basic

/-!
The host's source as four substitutions, one after another: special characters are escaped,
parenthesised parts become optional groups, and then named tokens and splats become their shapes.
Every substitution scans what the one before it wrote, yet the result is what the pieces of the
template say: no substitution makes or breaks a token that a later one looks for.
-/
namespace FragmentRouting.Template

/-! ### The four substitutions -/

/-- Replaces matches from left to right, after dropping the next `covered` characters. What a text
starts with is looked up: it gives a replacement and the length of what is replaced. -/
def substituteFrom (match? : Text → Option (Text × Nat)) : Nat → Text → Text
  | _, [] => []
  | covered + 1, _ :: t => substituteFrom match? covered t
  | 0, c :: t =>
    match match? (c :: t) with
    | some (replacement, length) => replacement ++ substituteFrom match? (length - 1) t
    | none => c :: substituteFrom match? 0 t

def substitute (match? : Text → Option (Text × Nat)) (t : Text) : Text := substituteFrom match? 0 t

/-- Whether a character can stand inside of an optional part: it neither closes it nor ends its
line. -/
def staysInside (c : Char) : Bool := c != ')' && c != '\n'

def optional? : Text → Option (Text × Nat)
  | '(' :: rest =>
    let inside := rest.takeWhile staysInside
    match rest.dropWhile staysInside with
    | ')' :: _ => some ('(' :: '?' :: ':' :: (inside ++ [')', '?']), inside.length + 2)
    | _ => none
  | _ => none

def named? : Text → Option (Text × Nat)
  | '(' :: '?' :: ':' :: rest =>
    match rest.takeWhile Text.isWord with
    | [] => none
    | name => some ('(' :: '?' :: ':' :: name, name.length + 3)
  | ':' :: rest =>
    match rest.takeWhile Text.isWord with
    | [] => none
    | name => some (namedShape, name.length + 1)
  | _ => none

def splat? : Text → Option (Text × Nat)
  | '*' :: rest =>
    match rest.takeWhile Text.isWord with
    | [] => none
    | name => some (splatShape, name.length + 1)
  | _ => none

def rewriting (template : Text) : Text :=
  let escaped := template.flatMap escapeChar
  '^' :: (substitute splat? (substitute named? (substitute optional? escaped)) ++ ['$'])

/-! ### Scans -/

section Scans

variable {match? : Text → Option (Text × Nat)}

theorem substituteFrom_covered (u t : Text) :
    substituteFrom match? u.length (u ++ t) = substitute match? t := by
  induction u with
  | nil => rfl
  | cons c u ih => exact ih

theorem substitute_pass {c : Char} {t : Text} (none_ : match? (c :: t) = none) :
    substitute match? (c :: t) = c :: substitute match? t := by
  rw [substitute, substituteFrom, none_]
  rfl

theorem substitute_found {c : Char} {u t replacement : Text}
    (found : match? (c :: (u ++ t)) = some (replacement, u.length + 1)) :
    substitute match? (c :: (u ++ t)) = replacement ++ substitute match? t := by
  rw [substitute, substituteFrom, found]
  exact congrArg (replacement ++ ·) (substituteFrom_covered u t)

theorem substitute_pass_all {u : Text} (t : Text) (none_ : ∀ c ∈ u, ∀ t, match? (c :: t) = none) :
    substitute match? (u ++ t) = u ++ substitute match? t := by
  induction u with
  | nil => rfl
  | cons c u ih =>
      obtain ⟨here, others⟩ := List.forall_mem_cons.mp none_
      rw [List.cons_append, substitute_pass (here _), ih others]
      rfl

end Scans

/-! ### Escaped characters -/

theorem isWord_of_isSpecial {c : Char} (special : isSpecial c = true) : Text.isWord c = false := by
  rw [isSpecial, Bool.or_eq_true] at special
  rcases special with blank | listed
  · exact Text.isWord_of_isBlank blank
  · have none_ : ['-', '\x7b', '\x7d', '[', ']', '+', '?', '.', ',', '\\', '^', '$', '|', '#'].all
        (fun d => !Text.isWord d) = true := by decide +kernel
    have other := List.all_eq_true.mp none_ c (List.contains_iff_mem.mp listed)
    rw [Bool.not_eq_true'] at other
    exact other

theorem escapeChar_ordinary {c : Char} (ordinary : isSpecial c = false) : escapeChar c = [c] :=
  if_neg (Bool.eq_false_iff.mp ordinary)

theorem forall_mem_token_text {token : Token} (named : token.Named) {p : Char → Prop}
    (marker : ∀ kind : TokenKind, p kind.marker) (word : ∀ c, Text.isWord c = true → p c) :
    ∀ c ∈ token.text, p c :=
  List.forall_mem_cons.mpr ⟨marker token.kind, fun c member => word c (named.words c member)⟩

theorem isSpecial_of_isWord {c : Char} (word : Text.isWord c = true) : isSpecial c = false := by
  rw [← Bool.not_eq_true]
  intro special
  rw [isWord_of_isSpecial special] at word
  exact Bool.false_ne_true word

theorem ne_of_isWord {c d : Char} (word : Text.isWord c = true) (other : Text.isWord d = false) :
    c ≠ d := by
  rintro rfl
  rw [other] at word
  exact Bool.false_ne_true word

/-- A piece with its special character escaped. -/
def Piece.escaped : Piece → Text
  | .literal c => escapeChar c
  | .token t => t.text

theorem flatMap_escapeChar (t : Text) :
    t.flatMap escapeChar = (pieces t).flatMap Piece.escaped := by
  apply pieces_induction (motive := fun t ps => t.flatMap escapeChar = ps.flatMap Piece.escaped)
  case nil => rfl
  case literal =>
      intro c rest _ ih
      rw [List.flatMap_cons, List.flatMap_cons, ih]
      rfl
  case token =>
      intro token rest named _ ih
      have plain : ∀ c ∈ token.text, escapeChar c = [c] := by
        refine forall_mem_token_text named ?_ ?_
        · intro kind
          cases kind <;> rfl
        · exact fun c word => escapeChar_ordinary (isSpecial_of_isWord word)
      have same : token.text.flatMap escapeChar = token.text := by
        rw [List.flatMap_congr plain, List.flatMap_singleton']
      rw [List.flatMap_append, List.flatMap_cons, same, ih]
      rfl

/-! ### Sources with tokens in them -/

/-- The source of some pieces as `sourceFrom` writes it, but with a text of its own for each
token. -/
def sourceOf (shape : Token → Text) : Bool → List Piece → Text
  | _, [] => []
  | inside, .token t :: rest => shape t ++ sourceOf shape inside rest
  | inside, .literal c :: rest =>
    if c = '(' ∧ inside = false ∧ closes rest = true then
      '(' :: '?' :: ':' :: sourceOf shape true rest
    else if c = ')' ∧ inside = true then ')' :: '?' :: sourceOf shape false rest
    else escapeChar c ++ sourceOf shape inside rest

theorem sourceOf_kind (shape : TokenKind → Text) (inside : Bool) (ps : List Piece) :
    sourceOf (fun token => shape token.kind) inside ps = sourceFrom shape inside ps := by
  induction ps generalizing inside with
  | nil => rfl
  | cons p rest ih =>
      cases p with
      | token t => rw [sourceOf, sourceFrom, ih]
      | literal c => rw [sourceOf, sourceFrom, ih, ih, ih]

/-! ### Optional parts -/

theorem staysInside_escapeChar {c : Char} (closing : c ≠ ')') (line : c ≠ '\n') :
    ∀ d ∈ escapeChar c, staysInside d = true := by
  have stays : staysInside c = true := by
    rw [staysInside, Bool.and_eq_true, bne_iff_ne, bne_iff_ne]
    exact ⟨closing, line⟩
  unfold escapeChar
  split
  · exact List.forall_mem_cons.mpr ⟨rfl, List.forall_mem_singleton.mpr stays⟩
  · exact List.forall_mem_singleton.mpr stays

theorem staysInside_token {token : Token} (named : token.Named) :
    ∀ d ∈ token.text, staysInside d = true := by
  refine forall_mem_token_text named ?_ ?_
  · intro kind
    cases kind <;> rfl
  · intro c word
    rw [staysInside, Bool.and_eq_true, bne_iff_ne, bne_iff_ne]
    exact ⟨ne_of_isWord word (by decide +kernel), ne_of_isWord word (by decide +kernel)⟩

/-- Whether a part closes can be read off the pieces and off what is written for them. -/
theorem head?_dropWhile_staysInside {ps : List Piece}
    (named : ∀ token, .token token ∈ ps → token.Named) :
    ((ps.flatMap Piece.escaped).dropWhile staysInside).head? = some ')' ↔ closes ps = true := by
  induction ps with
  | nil => exact iff_of_false nofun nofun
  | cons p rest ih =>
      have others := ih fun token member => named token (List.mem_cons_of_mem p member)
      cases p with
      | token token =>
          have stays := staysInside_token (named token List.mem_cons_self)
          rw [List.flatMap_cons, Piece.escaped, List.dropWhile_append_of_pos stays, others]
          rfl
      | literal c =>
          rw [List.flatMap_cons, Piece.escaped, closes]
          by_cases closing : c = ')'
          · rw [closing]
            exact iff_of_true rfl rfl
          · by_cases line : c = '\n'
            · rw [line]
              exact iff_of_false nofun nofun
            · rw [List.dropWhile_append_of_pos (staysInside_escapeChar closing line), others,
                if_neg closing, if_neg line]

theorem optional?_eq_none {c : Char} (other : c ≠ '(') (t : Text) : optional? (c :: t) = none := by
  unfold optional?
  split
  next same => exact absurd (List.cons.inj same).1 other
  next => rfl

theorem optional?_closed {inside : Text} (stays : ∀ c ∈ inside, staysInside c = true)
    (rest : Text) :
    optional? ('(' :: (inside ++ ')' :: rest)) =
      some ('(' :: '?' :: ':' :: (inside ++ [')', '?']), inside.length + 2) := by
  have front : (inside ++ ')' :: rest).takeWhile staysInside = inside := by
    rw [List.takeWhile_append_of_pos stays]
    exact List.append_nil inside
  have back : (inside ++ ')' :: rest).dropWhile staysInside = ')' :: rest := by
    rw [List.dropWhile_append_of_pos stays]
    rfl
  rw [optional?]
  simp only [front, back]

theorem optional?_open {ps : List Piece} (named : ∀ token, .token token ∈ ps → token.Named)
    (open_ : closes ps ≠ true) : optional? ('(' :: ps.flatMap Piece.escaped) = none := by
  rw [optional?]
  split
  next closed =>
      refine absurd ((head?_dropWhile_staysInside named).mp ?_) open_
      rw [closed]
      rfl
  next => rfl

/-- What the substitution does with a part that closes: it replaces the part as a whole, up to where
the source is outside again. -/
def ClosesAs (ps : List Piece) : Prop :=
  ∃ inside rest, ps.flatMap Piece.escaped = inside ++ ')' :: rest ∧
    (∀ c ∈ inside, staysInside c = true) ∧
    inside ++ ')' :: '?' :: substitute optional? rest = sourceOf Token.text true ps

theorem ClosesAs.cons {p : Piece} {ps : List Piece} (h : ClosesAs ps)
    (stays : ∀ c ∈ p.escaped, staysInside c = true)
    (source : sourceOf Token.text true (p :: ps) = p.escaped ++ sourceOf Token.text true ps) :
    ClosesAs (p :: ps) := by
  obtain ⟨inside, rest, split, within, result⟩ := h
  refine ⟨p.escaped ++ inside, rest, ?_, List.forall_mem_append.mpr ⟨stays, within⟩, ?_⟩
  · rw [List.flatMap_cons, split, List.append_assoc]
  · rw [List.append_assoc, result, source]

theorem ClosesAs.substitute {ps : List Piece} (h : ClosesAs ps) :
    substitute optional? ('(' :: ps.flatMap Piece.escaped) =
      '(' :: '?' :: ':' :: sourceOf Token.text true ps := by
  obtain ⟨inside, rest, split, within, result⟩ := h
  have found := optional?_closed within rest
  rw [List.append_cons] at found
  have size : inside.length + 2 = (inside ++ [')']).length + 1 := by
    rw [List.length_append]
    rfl
  rw [size] at found
  rw [split, List.append_cons, substitute_found found, ← result]
  simp only [List.cons_append, List.append_assoc, List.nil_append]

/-- The source goes on as the substitution does, outside of optional parts and inside of those that
close. -/
theorem substitute_optional {ps : List Piece} (named : ∀ token, .token token ∈ ps → token.Named) :
    substitute optional? (ps.flatMap Piece.escaped) = sourceOf Token.text false ps ∧
      (closes ps = true → ClosesAs ps) := by
  -- Only a parenthesis passes from outside to inside, so the induction carries both statements.
  induction ps with
  | nil => exact ⟨rfl, nofun⟩
  | cons p rest ih =>
      have named' : ∀ token, .token token ∈ rest → token.Named :=
        fun token member => named token (List.mem_cons_of_mem p member)
      obtain ⟨outer, inner⟩ := ih named'
      cases p with
      | token token =>
          have own := named token List.mem_cons_self
          refine ⟨?_, fun closed => (inner closed).cons (staysInside_token own) rfl⟩
          rw [List.flatMap_cons, sourceOf, Piece.escaped, substitute_pass_all, outer]
          refine forall_mem_token_text own ?_ ?_
          · intro kind
            cases kind <;> exact optional?_eq_none (by decide)
          · exact fun c word => optional?_eq_none (ne_of_isWord word (by decide +kernel))
      | literal c =>
          constructor
          · have outside : ¬ (c = ')' ∧ false = true) := fun h => Bool.false_ne_true h.2
            rw [List.flatMap_cons, Piece.escaped, sourceOf, if_neg outside]
            by_cases opening : c = '('
            · rw [opening]
              by_cases closed : closes rest = true
              · rw [if_pos ⟨rfl, rfl, closed⟩]
                exact (inner closed).substitute
              · rw [if_neg (fun h => closed h.2.2)]
                exact (substitute_pass (optional?_open named' closed)).trans
                  (congrArg ('(' :: ·) outer)
            · rw [if_neg (fun h => opening h.1), substitute_pass_all, outer]
              unfold escapeChar
              have here := optional?_eq_none opening
              split
              · exact List.forall_mem_cons.mpr
                  ⟨optional?_eq_none (by decide), List.forall_mem_singleton.mpr here⟩
              · exact List.forall_mem_singleton.mpr here
          · intro closed
            rw [closes] at closed
            by_cases closing : c = ')'
            · refine ⟨[], rest.flatMap Piece.escaped, ?_, List.forall_mem_nil _, ?_⟩
              · rw [closing]
                rfl
              · rw [closing, outer]
                rfl
            · rw [if_neg closing] at closed
              have line : c ≠ '\n' := by
                intro same
                rw [if_pos same] at closed
                cases closed
              rw [if_neg line] at closed
              have opened : ¬ (c = '(' ∧ true = false ∧ closes rest = true) :=
                fun h => nomatch h.2.1
              have goesOn : ¬ (c = ')' ∧ true = true) := fun h => closing h.1
              have stays : ∀ d ∈ (Piece.literal c).escaped, staysInside d = true :=
                staysInside_escapeChar closing line
              apply (inner closed).cons stays
              rw [sourceOf, if_neg opened, if_neg goesOn]
              rfl

/-! ### Tokens -/

variable {shape shape' : Token → Text}

/-- Whether a text for each token starts with a character that goes on with nothing before it. -/
def Starts (shape : Token → Text) : Prop :=
  ∀ token, ∃ c t, shape token = c :: t ∧ Text.isWord c = false ∧ c ≠ '?'

theorem head?_sourceOf (starts : Starts shape) (inside : Bool) (t : Text) :
    (startsWord t = false → startsWord (sourceOf shape inside (pieces t)) = false) ∧
      (sourceOf shape inside (pieces t)).head? ≠ some '?' := by
  revert inside
  apply pieces_induction (motive := fun t ps => ∀ inside,
    (startsWord t = false → startsWord (sourceOf shape inside ps) = false) ∧
      (sourceOf shape inside ps).head? ≠ some '?')
  case nil => exact fun _ => ⟨fun _ => rfl, nofun⟩
  case literal =>
      intro c rest _ _ inside
      have start {d : Char} (word : Text.isWord d = false) (mark : d ≠ '?') (u : Text) :
          (startsWord (c :: rest) = false → startsWord (d :: u) = false) ∧
            (d :: u).head? ≠ some '?' :=
        ⟨fun _ => word, fun same => mark (Option.some.inj same)⟩
      rw [sourceOf]
      split
      · exact start (by decide +kernel) (by decide) _
      split
      · exact start (by decide +kernel) (by decide) _
      · unfold escapeChar
        split
        · exact start (by decide +kernel) (by decide) _
        next ordinary =>
            refine ⟨id, fun same => ordinary ?_⟩
            rw [Option.some.inj same]
            decide
  case token =>
      intro token rest _ _ _ inside
      obtain ⟨c, t, form, word, mark⟩ := starts token
      rw [sourceOf, form]
      exact ⟨fun _ => word, fun same => mark (Option.some.inj same)⟩

/-- Whether a substitution turns the texts of tokens into others and leaves everything else that
stands in a source. -/
structure Rewrites (match? : Text → Option (Text × Nat)) (shape shape' : Token → Text) : Prop where
  starts : Starts shape
  token : ∀ (token : Token) rest, token.Named → startsWord rest = false →
    substitute match? (shape token ++ rest) = shape' token ++ substitute match? rest
  opening : ∀ rest, substitute match? ('(' :: '?' :: ':' :: rest) =
    '(' :: '?' :: ':' :: substitute match? rest
  plain : ∀ c rest, c ≠ '(' → (∀ kind : TokenKind, c ≠ kind.marker) → match? (c :: rest) = none
  literal : ∀ c rest, (∀ kind : TokenKind, c = kind.marker → startsWord rest = false) →
    rest.head? ≠ some '?' → match? (c :: rest) = none

theorem Rewrites.sourceOf {match? : Text → Option (Text × Nat)}
    (rewrites : Rewrites match? shape shape') (inside : Bool) (t : Text) :
    substitute match? (sourceOf shape inside (pieces t)) = sourceOf shape' inside (pieces t) := by
  revert inside
  apply pieces_induction (motive := fun t ps => ∀ inside,
    substitute match? (Template.sourceOf shape inside ps) = Template.sourceOf shape' inside ps)
  case nil => exact fun _ => rfl
  case literal =>
      intro c rest alone ih inside
      rw [Template.sourceOf, Template.sourceOf]
      have unmarked {d : Char} (named : d ≠ ':') (splat : d ≠ '*') (kind : TokenKind) :
          d ≠ kind.marker := by
        cases kind
        · exact named
        · exact splat
      split
      · rw [rewrites.opening, ih]
      split
      · have plain {d : Char} (other : d ≠ '(') (named : d ≠ ':') (splat : d ≠ '*') (t : Text) :
            match? (d :: t) = none := rewrites.plain d t other (unmarked named splat)
        rw [substitute_pass (plain (by decide) (by decide) (by decide) _),
          substitute_pass (plain (by decide) (by decide) (by decide) _), ih]
      · obtain ⟨words, mark⟩ := head?_sourceOf rewrites.starts inside rest
        have here := rewrites.literal c _ (fun kind same => words (alone kind same)) mark
        unfold escapeChar
        split
        · have escape := rewrites.plain '\\' (c :: Template.sourceOf shape inside (pieces rest))
            (by decide) (unmarked (by decide) (by decide))
          exact (substitute_pass escape).trans (congrArg ('\\' :: ·)
            ((substitute_pass here).trans (congrArg (c :: ·) (ih inside))))
        · exact (substitute_pass here).trans (congrArg (c :: ·) (ih inside))
  case token =>
      intro token rest named ends ih inside
      have after := (head?_sourceOf rewrites.starts inside rest).1 ends
      rw [Template.sourceOf, Template.sourceOf, rewrites.token token _ named after, ih]

def namedReplaced (token : Token) : Text :=
  match token.kind with
  | .named => namedShape
  | .splat => token.text

theorem named?_literal {c : Char} {rest : Text} (alone : c = ':' → startsWord rest = false)
    (mark : rest.head? ≠ some '?') : named? (c :: rest) = none := by
  unfold named?
  split
  next same =>
      rw [(List.cons.inj same).2] at mark
      exact absurd rfl mark
  next same =>
      obtain ⟨colon, rfl⟩ := List.cons.inj same
      rw [takeWhile_isWord_eq_nil_iff.mpr (alone colon)]
  next => rfl

theorem named?_plain {c : Char} (opening : c ≠ '(') (marker : c ≠ ':') (rest : Text) :
    named? (c :: rest) = none := by
  unfold named?
  split
  next same => exact absurd (List.cons.inj same).1 opening
  next same => exact absurd (List.cons.inj same).1 marker
  next => rfl

theorem named?_token {token : Token} (named : token.Named) {rest : Text}
    (ends : startsWord rest = false) :
    named? (':' :: (token.name ++ rest)) = some (namedShape, token.name.length + 1) := by
  rw [named?, takeWhile_name named ends]
  split
  next empty => exact absurd empty named.nonempty
  next => rfl

theorem named?_opening {name rest : Text} (words : ∀ c ∈ name, Text.isWord c = true)
    (nonempty : name ≠ []) (ends : startsWord rest = false) :
    named? ('(' :: '?' :: ':' :: (name ++ rest)) =
      some ('(' :: '?' :: ':' :: name, name.length + 3) := by
  have name_ : (⟨.named, name⟩ : Token).Named := ⟨nonempty, words⟩
  rw [named?, takeWhile_name name_ ends]
  split
  next empty => exact absurd empty nonempty
  next => rfl

theorem substitute_named_words {name : Text} (words : ∀ c ∈ name, Text.isWord c = true)
    (rest : Text) : substitute named? (name ++ rest) = name ++ substitute named? rest := by
  apply substitute_pass_all
  intro c member
  have word := words c member
  exact named?_plain (ne_of_isWord word (by decide +kernel)) (ne_of_isWord word (by decide +kernel))

theorem substitute_named_opening (rest : Text) :
    substitute named? ('(' :: '?' :: ':' :: rest) =
      '(' :: '?' :: ':' :: substitute named? rest := by
  have split := List.takeWhile_append_dropWhile (p := Text.isWord) (l := rest)
  have words : ∀ c ∈ rest.takeWhile Text.isWord, Text.isWord c = true :=
    List.all_eq_true.mp List.all_takeWhile
  have ends := startsWord_dropWhile rest
  generalize rest.takeWhile Text.isWord = name at split words
  generalize rest.dropWhile Text.isWord = behind at split ends
  rw [← split]
  by_cases empty : name = []
  · rw [empty, List.nil_append]
    have opening : named? ('(' :: '?' :: ':' :: behind) = none := by
      rw [named?, takeWhile_isWord_eq_nil_iff.mpr ends]
    have colon : named? (':' :: behind) = none := by
      rw [named?, takeWhile_isWord_eq_nil_iff.mpr ends]
    rw [substitute_pass opening, substitute_pass (named?_plain (by decide) (by decide) _),
      substitute_pass colon]
  · have found := named?_opening words empty ends
    rw [substitute_named_words words]
    exact substitute_found (u := '?' :: ':' :: name) found

theorem rewrites_named : Rewrites named? Token.text namedReplaced where
  starts token := by
    refine ⟨token.kind.marker, token.name, rfl, isWord_marker token.kind, ?_⟩
    cases token.kind <;> decide
  token token rest named ends := by
    obtain ⟨_ | _, name⟩ := token
    · exact substitute_found (named?_token named ends)
    · have star := named?_plain (c := '*') (by decide) (by decide) (name ++ rest)
      exact (substitute_pass star).trans
        (congrArg ('*' :: ·) (substitute_named_words named.words rest))
  opening := substitute_named_opening
  plain c rest opening unmarked := named?_plain opening (unmarked .named) rest
  literal c rest alone mark := named?_literal (alone .named) mark

theorem splat?_literal {c : Char} {rest : Text} (alone : c = '*' → startsWord rest = false) :
    splat? (c :: rest) = none := by
  unfold splat?
  split
  next same =>
      obtain ⟨star, rfl⟩ := List.cons.inj same
      rw [takeWhile_isWord_eq_nil_iff.mpr (alone star)]
  next => rfl

theorem splat?_plain {c : Char} (marker : c ≠ '*') (rest : Text) : splat? (c :: rest) = none :=
  splat?_literal fun same => absurd same marker

theorem splat?_token {token : Token} (named : token.Named) {rest : Text}
    (ends : startsWord rest = false) :
    splat? ('*' :: (token.name ++ rest)) = some (splatShape, token.name.length + 1) := by
  rw [splat?, takeWhile_name named ends]
  split
  next empty => exact absurd empty named.nonempty
  next => rfl

theorem rewrites_splat : Rewrites splat? namedReplaced (hostShape ·.kind) where
  starts token := by
    obtain ⟨_ | _, name⟩ := token
    · exact ⟨'(', _, rfl, by decide +kernel, by decide⟩
    · exact ⟨'*', name, rfl, isWord_marker .splat, by decide⟩
  token token rest named ends := by
    obtain ⟨_ | _, name⟩ := token
    · apply substitute_pass_all
      have plain : '*' ∉ namedShape := by decide
      exact fun c member => splat?_plain (ne_of_mem_of_not_mem member plain)
    · exact substitute_found (splat?_token named ends)
  opening rest := by
    rw [substitute_pass (splat?_plain (by decide) _), substitute_pass (splat?_plain (by decide) _),
      substitute_pass (splat?_plain (by decide) _)]
  plain c rest opening unmarked := splat?_plain (unmarked .splat) rest
  literal c rest alone mark := splat?_literal (alone .splat)

/-- The four substitutions write what the pieces of the template say. -/
theorem hostSource_eq_rewriting (template : Text) : hostSource template = rewriting template := by
  have named : ∀ token, .token token ∈ pieces template → token.Named :=
    fun _ => named_of_mem_pieces
  have passes : substitute splat? (substitute named? (substitute optional?
      (template.flatMap escapeChar))) = sourceFrom hostShape false (pieces template) := by
    rw [flatMap_escapeChar, (substitute_optional named).1, rewrites_named.sourceOf,
      rewrites_splat.sourceOf, sourceOf_kind]
  rw [rewriting, passes]
  rfl

/-- A group that opens before a word looks like a named token. -/
example : rewriting "a*(_:b/*c)".toList = "^a*(?:_([^/]+)/(.*?))?$".toList := by decide +kernel

end FragmentRouting.Template
