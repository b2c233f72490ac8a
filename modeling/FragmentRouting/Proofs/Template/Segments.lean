import FragmentRouting.Proofs.Template.Filling

namespace FragmentRouting.Template

/-- A segment: a text that stands for itself, or a named token. -/
inductive Segment : Text → Prop
  | literal {t : Text} (untokened : tokens t = [])
      (ordinary : ∀ c ∈ t, c ∉ ['/', '(', ')', '*', '?']) : Segment t
  | named {name : Text} (named : Token.Named ⟨.named, name⟩) : Segment (Token.text ⟨.named, name⟩)

/-- A list of segments with slashes between them; the last one may be a splat. -/
inductive Segmented : Text → Prop
  | last {t : Text} (segment : Segment t) : Segmented t
  | splat {name : Text} (named : Token.Named ⟨.splat, name⟩) : Segmented (Token.text ⟨.splat, name⟩)
  | slash {t rest : Text} (segment : Segment t) (others : Segmented rest) :
      Segmented (t ++ '/' :: rest)

theorem pieces_untokened {t : Text} (untokened : tokens t = []) :
    pieces t = t.map .literal := by
  have literal (ps : List Piece) (none_ : ps.filterMap Piece.token? = []) :
      (ps.flatMap Piece.text).map .literal = ps := by
    induction ps with
    | nil => rfl
    | cons p ps ih =>
        cases p with
        | literal c => exact congrArg (Piece.literal c :: ·) (ih none_)
        | token t => cases none_
  have same := literal (pieces t) untokened
  rw [text_pieces] at same
  exact same.symm

theorem pieces_token_alone {token : Token} (named : token.Named) :
    pieces token.text = [.token token] := by
  have ends : startsWord [] = false := rfl
  have alone := pieces_token named ends
  rw [List.append_nil] at alone
  exact alone

theorem pieces_slash (t rest : Text) :
    pieces (t ++ '/' :: rest) = pieces t ++ .literal '/' :: pieces rest := by
  have marks (kind : TokenKind) : '/' ≠ kind.marker := by
    cases kind <;> decide
  rw [pieces_append t (by rfl), pieces_literal fun kind same => absurd same (marks kind)]

def Piece.Ordinary (p : Piece) : Prop := p.Plain ∧ p ≠ .literal '?'

theorem Segment.ordinary {t : Text} (segment : Segment t) : ∀ p ∈ pieces t, p.Ordinary := by
  cases segment with
  | literal untokened ordinary =>
      rw [pieces_untokened untokened]
      intro p member
      obtain ⟨c, listed, rfl⟩ := List.mem_map.mp member
      have differs := ordinary c listed
      simp only [List.mem_cons, List.not_mem_nil, or_false, not_or] at differs
      obtain ⟨-, opening, closing, star, mark⟩ := differs
      exact ⟨⟨opening, closing, star⟩, fun same => mark (Piece.literal.inj same)⟩
  | named named =>
      rw [pieces_token_alone named]
      exact List.forall_mem_singleton.mpr ⟨trivial, nofun⟩

theorem Segmented.ordinary {t : Text} (segmented : Segmented t) :
    ∀ p ∈ pieces t, p.Ordinary := by
  induction segmented with
  | last segment => exact segment.ordinary
  | splat named =>
      rw [pieces_token_alone named]
      exact List.forall_mem_singleton.mpr ⟨trivial, nofun⟩
  | slash segment others ih =>
      have slash : (Piece.literal '/').Ordinary :=
        ⟨⟨by decide, by decide, by decide⟩, by decide⟩
      rw [pieces_slash]
      exact List.forall_mem_append.mpr ⟨segment.ordinary, List.forall_mem_cons.mpr ⟨slash, ih⟩⟩

section

variable {t u : Text} {values values' : List Text}

theorem Segment.slash_not_mem (segment : Segment t) (fills : Fills (pieces t) values u) :
    '/' ∉ u := by
  cases segment with
  | literal untokened ordinary =>
      rw [pieces_untokened untokened, fills_literal_iff] at fills
      rw [fills.2]
      exact fun slash => ordinary '/' slash List.mem_cons_self
  | named named =>
      rw [pieces_token_alone named, fills_token_iff] at fills
      exact fills.2.1

theorem Segment.fills_unique (segment : Segment t) (fills : Fills (pieces t) values u)
    (fills' : Fills (pieces t) values' u) : values = values' := by
  cases segment with
  | literal untokened ordinary =>
      rw [pieces_untokened untokened, fills_literal_iff] at fills fills'
      rw [fills.1, fills'.1]
  | named named =>
      rw [pieces_token_alone named, fills_token_iff] at fills fills'
      rw [fills.1, fills'.1]

/-- A path is divided among the tokens in one way. -/
theorem Segmented.fills_unique (segmented : Segmented t) (fills : Fills (pieces t) values u)
    (fills' : Fills (pieces t) values' u) : values = values' := by
  induction segmented generalizing values values' u with
  | last segment => exact segment.fills_unique fills fills'
  | splat named =>
      rw [pieces_token_alone named, fills_token_iff] at fills fills'
      rw [fills.1, fills'.1]
  | slash segment others ih =>
      rw [pieces_slash] at fills fills'
      obtain ⟨first, rest, v, w, rfl, rfl, here, behind⟩ := fills.of_append
      obtain ⟨first', rest', v', w', rfl, same, here', behind'⟩ := fills'.of_append
      cases behind with
      | literal behind =>
          cases behind' with
          | literal behind' =>
              obtain ⟨rfl, rfl⟩ := cut_unique (segment.slash_not_mem here)
                (segment.slash_not_mem here') same
              rw [segment.fills_unique here here', ih behind behind']

end

end FragmentRouting.Template
