import FragmentRouting.Proofs.Template.Pieces

namespace FragmentRouting.Template

/-- Parts of a text in turn with others, which stand between them. -/
def weave : List Text → List Text → Text
  | lit :: lits, text :: texts => lit ++ (text ++ weave lits texts)
  | lits, _ => lits.flatten

/-- The literal parts in front of, between and behind the tokens among some pieces. -/
def literals : List Piece → List Text
  | [] => [[]]
  | .literal c :: rest => (literals rest).modifyHead (c :: ·)
  | .token _ :: rest => [] :: literals rest

/-- Whether a template is some parts, one more than it has tokens, in turn with its tokens. -/
structure Divides (template : Text) (lits : List Text) : Prop where
  length : lits.length = (tokens template).length + 1
  whole : weave lits ((tokens template).map Token.text) = template

theorem length_literals (ps : List Piece) :
    (literals ps).length = (ps.filterMap Piece.token?).length + 1 := by
  induction ps with
  | nil => rfl
  | cons p rest ih =>
      cases p with
      | literal c => exact List.length_modifyHead.trans ih
      | token t => exact congrArg Nat.succ ih

theorem weave_literal (c : Char) (rest : List Piece) (texts : List Text) :
    weave (literals (.literal c :: rest)) texts = c :: weave (literals rest) texts := by
  have some_ : literals rest ≠ [] := by
    rw [← List.length_pos_iff, length_literals]
    exact Nat.succ_pos _
  obtain ⟨lit, lits, same⟩ := List.exists_cons_of_ne_nil some_
  rw [literals, same, List.modifyHead_cons]
  cases texts with
  | nil => rfl
  | cons text texts => rfl

theorem weave_token (t : Token) (rest : List Piece) (text : Text) (texts : List Text) :
    weave (literals (.token t :: rest)) (text :: texts) = text ++ weave (literals rest) texts := rfl

theorem weave_literals (ps : List Piece) :
    weave (literals ps) ((ps.filterMap Piece.token?).map Token.text) = ps.flatMap Piece.text := by
  induction ps with
  | nil => rfl
  | cons p rest ih =>
      cases p with
      | literal c => exact (weave_literal c rest _).trans (congrArg (c :: ·) ih)
      | token t => exact (weave_token t rest _ _).trans (congrArg (t.text ++ ·) ih)

theorem divides_literals (template : Text) : Divides template (literals (pieces template)) where
  length := length_literals (pieces template)
  whole := (weave_literals (pieces template)).trans (text_pieces template)

theorem named_of_mem_tokens {t : Token} {template : Text} (h : t ∈ tokens template) : t.Named := by
  obtain ⟨p, member, same⟩ := List.mem_filterMap.mp h
  cases p with
  | literal c => cases same
  | token other =>
      rw [← Option.some.inj same]
      exact named_of_mem_pieces member

theorem pieces_token_append {t : Token} (named : t.Named) (u : Text) :
    pieces (t.text ++ u) =
      .token ⟨t.kind, t.name ++ u.takeWhile Text.isWord⟩ ::
        pieces (u.dropWhile Text.isWord) := by
  let longer : Token := ⟨t.kind, t.name ++ u.takeWhile Text.isWord⟩
  have named' : longer.Named := by
    refine ⟨List.append_ne_nil_of_left_ne_nil named.nonempty _, ?_⟩
    exact List.forall_mem_append.mpr ⟨named.words, List.all_eq_true.mp List.all_takeWhile⟩
  have split : t.text ++ u = longer.text ++ u.dropWhile Text.isWord := by
    change t.kind.marker :: (t.name ++ u) = t.kind.marker :: (t.name ++ u.takeWhile _ ++ _)
    rw [List.append_assoc, List.takeWhile_append_dropWhile]
  rw [split, pieces_token named' (startsWord_dropWhile u)]

theorem pieces_append_token (lit : Text) (t : Token) (u : Text) :
    pieces (lit ++ (t.text ++ u)) = pieces lit ++ pieces (t.text ++ u) :=
  pieces_append lit (isWord_marker t.kind)

theorem tokens_words {name : Text} (words : ∀ c ∈ name, Text.isWord c = true) (rest : Text) :
    tokens (name ++ rest) = tokens rest := by
  have none_ : (name.map Piece.literal).filterMap Piece.token? = [] := by
    rw [List.filterMap_eq_nil_iff, List.forall_mem_map]
    exact fun c _ => rfl
  rw [tokens, pieces_words words, List.filterMap_append, none_]
  rfl

theorem length_tokens_token {t : Token} (named : t.Named) (u : Text) :
    (tokens (t.text ++ u)).length = (tokens u).length + 1 := by
  have words : ∀ c ∈ u.takeWhile Text.isWord, Text.isWord c = true :=
    List.all_eq_true.mp List.all_takeWhile
  have others := tokens_words words (u.dropWhile Text.isWord)
  rw [List.takeWhile_append_dropWhile] at others
  rw [tokens, pieces_token_append named, others]
  rfl

variable {ts : List Token}

theorem length_tokens_weave (named : ∀ t ∈ ts, t.Named) {lits : List Text}
    (size : lits.length = ts.length + 1) :
    (tokens (weave lits (ts.map Token.text))).length =
      ts.length + (lits.map fun lit => (tokens lit).length).sum := by
  induction ts generalizing lits with
  | nil =>
      obtain ⟨lit, rfl⟩ := List.length_eq_one_iff.mp size
      simp [weave]
  | cons t ts ih =>
      obtain ⟨first, named⟩ := List.forall_mem_cons.mp named
      obtain ⟨lit, lits, rfl⟩ := List.exists_cons_of_length_eq_add_one size
      have others := ih named (Nat.succ.inj size)
      have counted := length_tokens_token first (weave lits (ts.map Token.text))
      rw [tokens] at counted
      rw [List.map_cons, weave, tokens, pieces_append_token, List.filterMap_append,
        List.length_append, counted, others, List.length_cons, List.map_cons, List.sum_cons, tokens]
      omega

theorem Divides.untokened {template : Text} {lits : List Text} (divides : Divides template lits) :
    ∀ lit ∈ lits, tokens lit = [] := by
  have counted := length_tokens_weave (fun _ => named_of_mem_tokens) divides.length
  rw [divides.whole, Nat.left_eq_add, List.sum_eq_zero_iff] at counted
  intro lit member
  exact List.length_eq_zero_iff.mp (counted _ (List.mem_map_of_mem member))

theorem takeWhile_untokened {lit : Text} (untokened : tokens lit = []) {t : Token}
    (named : t.Named) (u : Text) :
    (pieces (lit ++ (t.text ++ u))).takeWhile (·.token?.isNone) = pieces lit := by
  have literal : ∀ p ∈ pieces lit, p.token?.isNone = true := by
    intro p member
    rw [List.filterMap_eq_nil_iff.mp untokened p member]
    rfl
  rw [pieces_append_token, pieces_token_append named, List.takeWhile_append_of_pos literal]
  exact List.append_nil _

theorem front_unique {t : Token} (named : t.Named) {lit other u v : Text}
    (untokened : tokens lit = []) (untokened' : tokens other = [])
    (same : lit ++ (t.text ++ u) = other ++ (t.text ++ v)) : lit = other ∧ u = v := by
  have front : lit = other := by
    rw [← text_pieces lit, ← takeWhile_untokened untokened named u, same,
      takeWhile_untokened untokened' named v, text_pieces]
  rw [front] at same
  exact ⟨front, List.append_cancel_left (List.append_cancel_left same)⟩

theorem weave_unique (named : ∀ t ∈ ts, t.Named) {lits others : List Text}
    (size : lits.length = ts.length + 1) (size' : others.length = ts.length + 1)
    (untokened : ∀ lit ∈ lits, tokens lit = []) (untokened' : ∀ lit ∈ others, tokens lit = [])
    (same : weave lits (ts.map Token.text) = weave others (ts.map Token.text)) :
    lits = others := by
  induction ts generalizing lits others with
  | nil =>
      obtain ⟨lit, rfl⟩ := List.length_eq_one_iff.mp size
      obtain ⟨other, rfl⟩ := List.length_eq_one_iff.mp size'
      simpa [weave] using same
  | cons t ts ih =>
      obtain ⟨first, named⟩ := List.forall_mem_cons.mp named
      obtain ⟨lit, lits, rfl⟩ := List.exists_cons_of_length_eq_add_one size
      obtain ⟨other, others, rfl⟩ := List.exists_cons_of_length_eq_add_one size'
      obtain ⟨here, further⟩ := List.forall_mem_cons.mp untokened
      obtain ⟨here', further'⟩ := List.forall_mem_cons.mp untokened'
      obtain ⟨front, rest⟩ := front_unique first here here' same
      rw [front, ih named (Nat.succ.inj size) (Nat.succ.inj size') further further' rest]

/-- The literal parts of a template are the only parts that divide it. -/
theorem divides_iff {template : Text} {lits : List Text} :
    Divides template lits ↔ lits = literals (pieces template) := by
  have divides := divides_literals template
  constructor
  · intro other
    apply weave_unique (fun _ => named_of_mem_tokens) other.length divides.length other.untokened
      divides.untokened
    rw [other.whole, divides.whole]
  · rintro rfl
    exact divides

end FragmentRouting.Template
