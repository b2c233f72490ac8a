import FragmentRouting.Proofs.Wire.Urlencoded

namespace FragmentRouting

theorem Text.cut_append {c : Char} {s : Text} (h : c ∉ s) (t : Text) :
    Text.cut c (s ++ c :: t) = (s, some t) := by
  induction s with
  | nil => simp only [List.nil_append, Text.cut, if_true]
  | cons d s ih =>
      rw [List.mem_cons, not_or] at h
      simp only [List.cons_append, Text.cut, if_neg (Ne.symm h.1), ih h.2]

theorem Text.cut_of_not_mem {c : Char} {s : Text} (h : c ∉ s) : Text.cut c s = (s, none) := by
  induction s with
  | nil => rfl
  | cons d s ih =>
      rw [List.mem_cons, not_or] at h
      simp only [Text.cut, if_neg (Ne.symm h.1), ih h.2]

theorem Text.dropLead_of_not_mem {c : Char} {t : Text} (h : c ∉ t) : Text.dropLead c t = t := by
  cases t with
  | nil => rfl
  | cons d t =>
      rw [List.mem_cons, not_or] at h
      exact if_neg (Ne.symm h.1)

namespace Wire

theorem parts_joinWith {ps : List Text} (h : ∀ p ∈ ps, '&' ∉ p) :
    parts (Text.joinWith ['&'] ps) = ps.filter fun part => !part.isEmpty := by
  unfold parts Text.joinWith
  cases ps with
  | nil => rfl
  | cons p ps => rw [List.splitOn_intercalate '&' h (List.cons_ne_nil p ps)]

def isVisible (pair : Pair Text) : Bool := pair.2.isSome || !pair.1.isEmpty

theorem filter_isVisible {pairs : List (Pair Text)}
    (framed : ∀ pair ∈ pairs, pair.2 = none → pair.1 ≠ []) : pairs.filter isVisible = pairs := by
  apply List.filter_eq_self.mpr
  rintro ⟨key, _ | value⟩ member
  · have some_ : key ≠ [] := framed _ member rfl
    rw [isVisible, List.isEmpty_eq_false_iff.mpr some_]
    rfl
  · rfl

variable {encoding : Encoding} {charset : Charset}

/-- How a pair is written in a character set. -/
inductive Written (charset : Charset) : Pair Text → Text → Prop
  | key {key : Text} {bytes : List UInt8} (encoded : charset.encode key = .ok bytes) :
      Written charset (key, none) (quoteBytes bytes)
  | entry {key value : Text} {keyBytes valueBytes : List UInt8}
      (encodedKey : charset.encode key = .ok keyBytes)
      (encodedValue : charset.encode value = .ok valueBytes) :
      Written charset (key, some value) (quoteBytes keyBytes ++ '=' :: quoteBytes valueBytes)

theorem written_of_writePair (names : Names encoding charset) {pair : Pair Text} {part : Text}
    (h : writePair encoding (.text pair.1, pair.2) = .ok part) : Written charset pair part := by
  rcases pair with ⟨key, _ | value⟩
  · obtain ⟨bytes, encoded, rfl⟩ := (quote_eq_ok_iff names).mp h
    exact .key encoded
  · obtain ⟨k, hk, h⟩ := bind_eq_ok_iff.mp h
    obtain ⟨v, hv, h⟩ := bind_eq_ok_iff.mp h
    obtain ⟨keyBytes, encodedKey, rfl⟩ := (quote_eq_ok_iff names).mp hk
    obtain ⟨valueBytes, encodedValue, rfl⟩ := (quote_eq_ok_iff names).mp hv
    rw [← Except.ok.inj h]
    exact .entry encodedKey encodedValue

theorem not_mem_quoteBytes {c : Char} (h : isWritten c = false) (bytes : List UInt8) :
    c ∉ quoteBytes bytes := by
  intro hc
  rw [isWritten_of_mem_quoteBytes hc] at h
  cases h

namespace Written

variable {pair : Pair Text} {part : Text}

theorem readPair (names : Names encoding charset) (query : Text)
    (written : Written charset pair part) : readPair encoding query part = .ok pair := by
  have noEquals := not_mem_quoteBytes (c := '=') rfl
  cases written with
  | key encoded =>
      rw [Wire.readPair, Text.cut_of_not_mem (noEquals _)]
      simp only [unquote_quoteBytes names query encoded, ok_bind]
      rfl
  | entry encodedKey encodedValue =>
      rw [Wire.readPair, Text.cut_append (noEquals _)]
      simp only [unquote_quoteBytes names query encodedKey,
        unquote_quoteBytes names query encodedValue, ok_bind]
      rfl

theorem ampersand_not_mem (written : Written charset pair part) : '&' ∉ part := by
  have noAmpersand := not_mem_quoteBytes (c := '&') rfl
  cases written with
  | key => exact noAmpersand _
  | entry =>
      rw [List.mem_append, List.mem_cons, not_or, not_or]
      exact ⟨noAmpersand _, by decide, noAmpersand _⟩

theorem visible_iff (written : Written charset pair part) :
    isVisible pair = true ↔ (!part.isEmpty) = true := by
  cases written with
  | @key key bytes encoded =>
      cases key with
      | nil =>
          rw [← Except.ok.inj encoded]
          rfl
      | cons c key =>
          refine iff_of_true rfl ?_
          rw [Bool.not_eq_true', List.isEmpty_eq_false_iff]
          intro empty
          have noBytes := unquoteBytes_quoteBytes bytes
          rw [empty] at noBytes
          rw [← noBytes] at encoded
          exact List.cons_ne_nil c key (Charset.eq_of_encode encoded rfl)
  | entry =>
      refine iff_of_true rfl ?_
      rw [Bool.not_eq_true', List.isEmpty_eq_false_iff]
      exact List.append_ne_nil_of_right_ne_nil _ (List.cons_ne_nil _ _)

end Written

/-- The pairs that are read are those that were written, without the empty keys that stand
alone. -/
theorem readPairs_of_writePairs_visible (names : Names encoding charset)
    {pairs : List (Pair Text)} {query : Text}
    (h : writePairs encoding (pairs.map fun pair => (.text pair.1, pair.2)) = .ok query) :
    readPairs encoding query = .ok (pairs.filter isVisible) := by
  have noLead : '?' ∉ query := fun hc => by cases isFramed_of_mem_writePairs h '?' hc
  obtain ⟨ps, each, h⟩ := bind_eq_ok_iff.mp h
  rw [List.mapM_map] at each
  have written : List.Forall₂ (Written charset) pairs ps :=
    (mapM_eq_ok_iff.mp each).imp fun _ _ => written_of_writePair names
  have apart : parts query = ps.filter fun part => !part.isEmpty := by
    rw [← Except.ok.inj h]
    apply parts_joinWith
    intro part member
    obtain ⟨pair, -, same⟩ := exists_argument_of_mapM each member
    exact (written_of_writePair names same).ampersand_not_mem
  have kept : List.Forall₂ (Written charset) (pairs.filter isVisible)
      (ps.filter fun part => !part.isEmpty) :=
    List.rel_filter (fun _ _ written => written.visible_iff) written
  rw [readPairs, Text.dropLead_of_not_mem noLead, apart, mapM_eq_ok_iff]
  exact kept.flip.imp fun _ _ written => written.readPair names query

theorem readPairs_of_writePairs (names : Names encoding charset) {pairs : List (Pair Text)}
    (framed : ∀ pair ∈ pairs, pair.2 = none → pair.1 ≠ []) {query : Text}
    (h : writePairs encoding (pairs.map fun pair => (.text pair.1, pair.2)) = .ok query) :
    readPairs encoding query = .ok pairs := by
  rw [readPairs_of_writePairs_visible names h, filter_isVisible framed]

def utf8Pair (pair : Pair Text) : Text :=
  match pair.2 with
  | none => quoteBytes (Utf8.encode pair.1)
  | some value => quoteBytes (Utf8.encode pair.1) ++ '=' :: quoteBytes (Utf8.encode value)

theorem writePair_utf8 (utf8 : IsUtf8 encoding) (pair : Pair Text) :
    writePair encoding (.text pair.1, pair.2) = .ok (utf8Pair pair) := by
  rcases pair with ⟨key, _ | value⟩
  · exact quote_utf8 utf8 key
  · simp only [writePair, quoteKey, quote_utf8 utf8]
    rfl

theorem writePairs_utf8 (utf8 : IsUtf8 encoding) (pairs : List (Pair Text)) :
    writePairs encoding (pairs.map fun pair => (.text pair.1, pair.2)) =
      .ok (Text.joinWith ['&'] (pairs.map utf8Pair)) := by
  have written : (pairs.map fun pair => (Value.text pair.1, pair.2)).mapM (writePair encoding) =
      .ok (pairs.map utf8Pair) := by
    rw [List.mapM_map]
    exact mapM_ok fun pair _ => writePair_utf8 utf8 pair
  rw [writePairs, written]
  rfl

theorem readPairs_utf8 (utf8 : IsUtf8 encoding) {pairs : List (Pair Text)}
    (framed : ∀ pair ∈ pairs, pair.2 = none → pair.1 ≠ []) :
    readPairs encoding (Text.joinWith ['&'] (pairs.map utf8Pair)) = .ok pairs :=
  readPairs_of_writePairs utf8 framed (writePairs_utf8 utf8 pairs)

end Wire

end FragmentRouting
