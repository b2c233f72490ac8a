import FragmentRouting.Template.Piece
import Mathlib

namespace FragmentRouting.Template

theorem isWord_marker (kind : TokenKind) : Text.isWord kind.marker = false := by
  cases kind with
  | named => decide
  | splat => decide

theorem ofMarker?_eq_some_iff {c : Char} {kind : TokenKind} :
    TokenKind.ofMarker? c = some kind ↔ c = kind.marker := by
  constructor
  · intro h
    unfold TokenKind.ofMarker? at h
    split at h
    · rw [← Option.some.inj h]
      rfl
    · rw [← Option.some.inj h]
      rfl
    · exact absurd h nofun
  · intro h
    rw [h]
    cases kind with
    | named => rfl
    | splat => rfl

theorem ofMarker?_of_isWord {c : Char} (word : Text.isWord c = true) :
    TokenKind.ofMarker? c = none := by
  rw [Option.eq_none_iff_forall_ne_some]
  intro kind marks
  rw [ofMarker?_eq_some_iff.mp marks, isWord_marker] at word
  exact Bool.false_ne_true word

theorem pieces_word {c : Char} (word : Text.isWord c = true) (rest : Text) :
    pieces (c :: rest) = .literal c :: pieces rest := by
  rw [pieces, ofMarker?_of_isWord word]

theorem pieces_words {name : Text} (words : ∀ c ∈ name, Text.isWord c = true) (rest : Text) :
    pieces (name ++ rest) = name.map .literal ++ pieces rest := by
  induction name with
  | nil => rfl
  | cons c name ih =>
      obtain ⟨word, others⟩ := List.forall_mem_cons.mp words
      rw [List.cons_append, pieces_word word, ih others]
      rfl

def startsWord (t : Text) : Bool := t.head?.any Text.isWord

theorem takeWhile_isWord_eq_nil_iff {t : Text} :
    t.takeWhile Text.isWord = [] ↔ startsWord t = false := by
  cases t with
  | nil => exact iff_of_true rfl rfl
  | cons c t =>
      rw [startsWord, List.head?_cons, Option.any_some, ← Bool.not_eq_true]
      constructor
      · intro h word
        rw [List.takeWhile_cons_of_pos word] at h
        exact absurd h (List.cons_ne_nil _ _)
      · exact List.takeWhile_cons_of_neg

theorem startsWord_dropWhile (t : Text) : startsWord (t.dropWhile Text.isWord) = false := by
  induction t with
  | nil => rfl
  | cons c t ih =>
      rw [List.dropWhile_cons]
      split
      · exact ih
      · next word => exact Bool.eq_false_iff.mpr word

/-- The name of a token as it is read: word characters, and at least one. -/
structure Token.Named (token : Token) : Prop where
  nonempty : token.name ≠ []
  words : ∀ c ∈ token.name, Text.isWord c = true

theorem takeWhile_name {token : Token} (named : token.Named) {rest : Text}
    (ends : startsWord rest = false) : (token.name ++ rest).takeWhile Text.isWord = token.name := by
  rw [List.takeWhile_append_of_pos named.words, takeWhile_isWord_eq_nil_iff.mpr ends,
    List.append_nil]

theorem pieces_token {token : Token} (named : token.Named) {rest : Text}
    (ends : startsWord rest = false) :
    pieces (token.text ++ rest) = .token token :: pieces rest := by
  have name := takeWhile_name named ends
  have text : token.text ++ rest = token.kind.marker :: (token.name ++ rest) := rfl
  have marks := ofMarker?_eq_some_iff.mpr (rfl : token.kind.marker = token.kind.marker)
  have skipped : (pieces (token.name ++ rest)).drop token.name.length = pieces rest := by
    rw [pieces_words named.words]
    exact List.drop_left' (List.length_map _)
  rw [text, pieces, marks]
  simp only [name]
  split
  next empty => exact absurd empty named.nonempty
  next => rw [skipped]

theorem pieces_literal {c : Char} {rest : Text}
    (alone : ∀ kind : TokenKind, c = kind.marker → startsWord rest = false) :
    pieces (c :: rest) = .literal c :: pieces rest := by
  cases marks : TokenKind.ofMarker? c with
  | none => rw [pieces, marks]
  | some kind =>
      have name := takeWhile_isWord_eq_nil_iff.mpr (alone kind (ofMarker?_eq_some_iff.mp marks))
      rw [pieces, marks]
      simp only [name]

/-- Cases on the first piece of a template: none, a character, or a token with what follows it. -/
theorem pieces_induction {motive : Text → List Piece → Prop} (nil : motive [] [])
    (literal : ∀ c rest, (∀ kind : TokenKind, c = kind.marker → startsWord rest = false) →
      motive rest (pieces rest) → motive (c :: rest) (.literal c :: pieces rest))
    (token : ∀ (token : Token) rest, token.Named → startsWord rest = false →
      motive rest (pieces rest) → motive (token.text ++ rest) (.token token :: pieces rest))
    (t : Text) : motive t (pieces t) := by
  -- A token leaves a text that may be much shorter, so the induction is on the length.
  induction size : t.length using Nat.strongRecOn generalizing t with
  | _ n shorter =>
      cases t with
      | nil => exact nil
      | cons c rest =>
          have below : rest.length < n := by
            rw [← size]
            exact Nat.lt_succ_self _
          have others := shorter rest.length below rest rfl
          cases marks : TokenKind.ofMarker? c with
          | none =>
              have alone (kind : TokenKind) (same : c = kind.marker) : startsWord rest = false := by
                rw [ofMarker?_eq_some_iff.mpr same] at marks
                cases marks
              rw [pieces_literal alone]
              exact literal c rest alone others
          | some kind =>
              cases name : rest.takeWhile Text.isWord with
              | nil =>
                  have ends := takeWhile_isWord_eq_nil_iff.mp name
                  rw [pieces_literal fun _ _ => ends]
                  exact literal c rest (fun _ _ => ends) others
              | cons d more =>
                  let found : Token := ⟨kind, rest.takeWhile Text.isWord⟩
                  let behind := rest.dropWhile Text.isWord
                  have named : found.Named := by
                    constructor
                    · change rest.takeWhile Text.isWord ≠ []
                      rw [name]
                      exact List.cons_ne_nil d more
                    · exact List.all_eq_true.mp List.all_takeWhile
                  have split : c :: rest = found.text ++ behind := by
                    rw [ofMarker?_eq_some_iff.mp marks]
                    exact congrArg (kind.marker :: ·) List.takeWhile_append_dropWhile.symm
                  have ends := startsWord_dropWhile rest
                  have smaller : behind.length < n :=
                    Nat.lt_of_le_of_lt (List.dropWhile_sublist _).length_le below
                  rw [split, pieces_token named ends]
                  exact token found behind named ends (shorter behind.length smaller behind rfl)

theorem pieces_append (t : Text) {u : Text} (ends : startsWord u = false) :
    pieces (t ++ u) = pieces t ++ pieces u := by
  have further {rest : Text} (stops : startsWord rest = false) :
      startsWord (rest ++ u) = false := by
    cases rest with
    | nil => exact ends
    | cons c rest => exact stops
  apply pieces_induction (motive := fun t ps => pieces (t ++ u) = ps ++ pieces u)
  case nil => rfl
  case literal =>
      intro c rest alone ih
      rw [List.cons_append, pieces_literal fun kind same => further (alone kind same), ih]
      rfl
  case token =>
      intro token rest named stops ih
      rw [List.append_assoc, pieces_token named (further stops), ih]
      rfl

/-- A template is written by its pieces. -/
theorem text_pieces (t : Text) : (pieces t).flatMap Piece.text = t := by
  apply pieces_induction (motive := fun t ps => ps.flatMap Piece.text = t)
  case nil => rfl
  case literal =>
      intro c rest _ ih
      rw [List.flatMap_cons, ih]
      rfl
  case token =>
      intro token rest _ _ ih
      rw [List.flatMap_cons, ih]
      rfl

theorem mem_of_literal_mem_pieces {c : Char} {t : Text} (h : .literal c ∈ pieces t) : c ∈ t := by
  rw [← text_pieces t]
  exact List.mem_flatMap.mpr ⟨.literal c, h, List.mem_singleton_self c⟩

theorem named_of_mem_pieces {token : Token} {t : Text} (h : .token token ∈ pieces t) :
    token.Named := by
  revert h
  apply pieces_induction (motive := fun _ ps => .token token ∈ ps → token.Named)
  case nil => exact nofun
  case literal =>
      intro c rest _ ih h
      rcases List.mem_cons.mp h with first | h
      · exact absurd first nofun
      · exact ih h
  case token =>
      intro other rest named _ ih h
      rcases List.mem_cons.mp h with first | h
      · rw [Piece.token.inj first]
        exact named
      · exact ih h

theorem literal_mem_pieces {c : Char} {t : Text} (member : c ∈ t)
    (unmarked : ∀ kind : TokenKind, c ≠ kind.marker) (outside : Text.isWord c = false) :
    .literal c ∈ pieces t := by
  rw [← text_pieces t] at member
  obtain ⟨p, listed, member⟩ := List.mem_flatMap.mp member
  cases p with
  | literal d =>
      rw [List.mem_singleton.mp member]
      exact listed
  | token token =>
      rcases List.mem_cons.mp member with same | member
      · exact absurd same (unmarked token.kind)
      · have word := (named_of_mem_pieces listed).words c member
        exact absurd (outside.symm.trans word) Bool.false_ne_true

/-- Whether every star has a word character behind it. -/
def starsNamed : Text → Bool
  | [] => true
  | c :: rest => (c != '*' || startsWord rest) && starsNamed rest

theorem starsNamed_of_append {u v : Text} (h : starsNamed (u ++ v) = true) :
    starsNamed v = true := by
  induction u with
  | nil => exact h
  | cons c u ih =>
      rw [List.cons_append, starsNamed, Bool.and_eq_true] at h
      exact ih h.2

theorem star_not_mem_pieces {t : Text} (h : starsNamed t = true) : .literal '*' ∉ pieces t := by
  revert h
  apply pieces_induction (motive := fun t ps => starsNamed t = true → .literal '*' ∉ ps)
  case nil => exact fun _ => List.not_mem_nil
  case literal =>
      intro c rest alone ih h member
      rw [starsNamed, Bool.and_eq_true, Bool.or_eq_true, bne_iff_ne] at h
      rcases List.mem_cons.mp member with first | member
      · have star : c = '*' := (Piece.literal.inj first).symm
        rcases h.1 with differs | word
        · exact differs star
        · rw [alone .splat star] at word
          exact Bool.false_ne_true word
      · exact ih h.2 member
  case token =>
      intro token rest _ _ ih h member
      rcases List.mem_cons.mp member with first | member
      · exact absurd first nofun
      · exact ih (starsNamed_of_append h) member

end FragmentRouting.Template
