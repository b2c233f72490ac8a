import FragmentRouting.Proofs.Wire.Grammar
import FragmentRouting.Proofs.Wire.Pairs

namespace FragmentRouting.Wire

/-! ### Runs of ASCII characters -/

theorem hexValue?_of_large {c : Char} (large : 128 ≤ c.toNat) : Text.hexValue? c = none := by
  have outside {d : Char} (ascii : d.toNat < 128) : ¬ c ≤ d := by
    intro below
    have bound : c.toNat ≤ d.toNat := below
    omega
  unfold Text.hexValue?
  rw [if_neg fun digit => outside (by decide) digit.2,
    if_neg fun digit => outside (by decide) digit.2,
    if_neg fun digit => outside (by decide) digit.2]

theorem separates_of_large {c : Char} (large : 128 ≤ c.toNat) : Separates c where
  percent := by
    rintro rfl
    exact absurd large (by decide)
  digit := hexValue?_of_large large

theorem unquoteBytes_eq_octets {t : Text} (ascii : ∀ c ∈ t, c.toNat < 128) :
    unquoteBytes t = octets t := by
  induction t using octets.induct with
  | case1 a b rest high low first second ih =>
      have others := ih fun c hc => ascii c (by simp [hc])
      simp only [unquoteBytes, octets, first, second, others]
  | case2 a b rest bad ih =>
      have others := ih fun c hc => ascii c (List.mem_cons_of_mem _ hc)
      have byte : unquoteBytes ('%' :: a :: b :: rest) =
          .ofNat '%'.toNat :: unquoteBytes (a :: b :: rest) := by
        rw [unquoteBytes]
        split
        next first second => exact absurd second (bad _ _ first)
        next => rfl
      have octet : octets ('%' :: a :: b :: rest) =
          Utf8.encodeChar '%' ++ octets (a :: b :: rest) := by
        rw [octets]
        split
        next first second => exact absurd second (bad _ _ first)
        next => rfl
      rw [byte, octet, others]
      rfl
  | case3 c rest short ih =>
      have others := ih fun c hc => ascii c (List.mem_cons_of_mem _ hc)
      rw [octets, unquoteBytes, Utf8.encodeChar_ascii (ascii c List.mem_cons_self), others]
      · rfl
      · exact short
      · exact short
  | case4 => rfl

section Runs

variable {decode : List UInt8 → Except Fault Text}
  (decoded : ∀ bytes t, decode bytes = .ok t ↔ Utf8.encode t = bytes)

include decoded

theorem flush_eq_ok_iff {run s : Text} (ascii : ∀ c ∈ run, c.toNat < 128) :
    decodeRuns.flush decode run = .ok s ↔ Utf8.encode s = octets run.reverse := by
  have ascii' : ∀ c ∈ run.reverse, c.toNat < 128 := fun c hc => ascii c (List.mem_reverse.mp hc)
  have read : decode (octets run.reverse) = .ok s ↔ Utf8.encode s = octets run.reverse :=
    decoded _ s
  rw [← read, decodeRuns.flush, unquoteBytes_eq_octets ascii']
  cases run with
  | nil =>
      have empty : decode (octets []) = .ok [] := (decoded _ []).mpr rfl
      rw [List.reverse_nil, empty]
      rfl
  | cons c run => rfl

/-- Decoding run by run gives the text of all bytes. -/
theorem decodeRuns_eq_ok_iff {run t s : Text} (ascii : ∀ c ∈ run, c.toNat < 128) :
    decodeRuns decode run t = .ok s ↔ Utf8.encode s = octets (run.reverse ++ t) := by
  induction t generalizing run s with
  | nil =>
      rw [List.append_nil]
      exact flush_eq_ok_iff decoded ascii
  | cons c t ih =>
      rw [decodeRuns]
      split
      next small =>
          rw [ih (List.forall_mem_cons.mpr ⟨small, ascii⟩), List.reverse_cons, List.append_assoc]
          rfl
      next large =>
          have separates := separates_of_large (Nat.not_lt.mp large)
          simp only [bind_eq_ok_iff, flush_eq_ok_iff decoded ascii, ih (List.forall_mem_nil _),
            separates.octets_append, List.reverse_nil, List.nil_append]
          constructor
          · rintro ⟨before, front, after, back, same⟩
            rw [← Except.ok.inj same, ← front, ← back, Utf8.encode, List.flatMap_append,
              List.flatMap_cons]
            rfl
          · intro whole
            obtain ⟨u, v, rfl, front, back⟩ := Utf8.encode_eq_cut whole
            exact ⟨u, front, v, back, rfl⟩

end Runs

theorem decodeRuns_error {decode : List UInt8 → Except Fault Text} {run t : Text} {fault : Fault}
    (h : decodeRuns decode run t = .error fault) : ∃ bytes, decode bytes = .error fault := by
  have flushed {run : Text} (h : decodeRuns.flush decode run = .error fault) :
      ∃ bytes, decode bytes = .error fault := by
    unfold decodeRuns.flush at h
    split at h
    next => cases h
    next => exact ⟨_, h⟩
  induction t generalizing run with
  | nil => exact flushed h
  | cons c t ih =>
      rw [decodeRuns] at h
      split at h
      next => exact ih h
      next =>
          rcases bind_eq_error_iff.mp h with h | ⟨before, -, h⟩
          · exact flushed h
          · rcases bind_eq_error_iff.mp h with h | ⟨after, -, h⟩
            · exact ih h
            · cases h

/-! ### Keys and values -/

theorem decode_utf8_eq_ok_iff {bytes : List UInt8} {t : Text} :
    Charset.decode .utf8 bytes = .ok t ↔ Utf8.encode t = bytes :=
  mapError_eq_ok_iff.trans Utf8.decode_eq_ok_iff

variable {encoding : Encoding}

/-- A key or value reads as the text of its bytes, with blanks for plus signs, if its escapes are
complete. -/
theorem unquote_eq_ok_iff (utf8 : IsUtf8 encoding) {query t s : Text} :
    unquote encoding query t = .ok s ↔
      Escaped t ∧ Utf8.encode s = octets (t.map plusToBlank) := by
  unfold unquote
  cases escapes : badEscape? t with
  | some offset =>
      refine iff_of_false nofun fun h => ?_
      rw [badEscape?, (badEscapeFrom_eq_none_iff 0 t).mpr h.1] at escapes
      cases escapes
  | none =>
      rw [and_iff_right ((badEscapeFrom_eq_none_iff 0 t).mp escapes)]
      generalize t.map plusToBlank = blanked
      dsimp only
      split
      next =>
          apply decodeRuns_eq_ok_iff _ (List.forall_mem_nil _)
          intro bytes read
          rw [decodeRun_eq utf8, mapError_eq_ok_iff, decode_utf8_eq_ok_iff]
      next plain =>
          have noEscape : '%' ∉ blanked := by simpa using plain
          rw [octets_plain noEscape]
          constructor
          · intro same
            rw [Except.ok.inj same]
          · intro same
            rw [Utf8.encode_injective same]

theorem unquote_error_cases (utf8 : IsUtf8 encoding) {query t : Text} {fault : Fault}
    (h : unquote encoding query t = .error fault) :
    (¬ Escaped t ∧ ∃ offset, fault = .malformedQuery (.badEscape offset t) query) ∨
      (Escaped t ∧ ∃ cause, fault = .malformedQuery (.undecodable t cause) query) := by
  unfold unquote at h
  split at h
  next offset found =>
      refine .inl ⟨fun escaped => ?_, offset, (Except.error.inj h).symm⟩
      rw [badEscape?, (badEscapeFrom_eq_none_iff 0 t).mpr escaped] at found
      cases found
  next clean =>
      refine .inr ⟨(badEscapeFrom_eq_none_iff 0 t).mp clean, ?_⟩
      dsimp only at h
      split at h
      next =>
          obtain ⟨bytes, h⟩ := decodeRuns_error h
          rw [decodeRun_eq utf8, mapError_eq_error_iff] at h
          obtain ⟨cause, -, same⟩ := h
          exact ⟨cause, same.symm⟩
      next => cases h

theorem unquote_error (utf8 : IsUtf8 encoding) {query t : Text} {fault : Fault}
    (h : unquote encoding query t = .error fault) : ∃ flaw, fault = .malformedQuery flaw query := by
  obtain ⟨-, offset, rfl⟩ | ⟨-, cause, rfl⟩ := unquote_error_cases utf8 h
  · exact ⟨_, rfl⟩
  · exact ⟨_, rfl⟩

theorem plusToBlank_plain {t : Text} (h : '+' ∉ t) : t.map plusToBlank = t := by
  have same : ∀ c ∈ t, plusToBlank c = c := fun c hc => if_neg (ne_of_mem_of_not_mem hc h)
  rw [List.map_congr_left same, List.map_id']

theorem valid_plusToBlank_iff (t : Text) :
    Utf8.Valid (octets (t.map plusToBlank)) ↔ Utf8.Valid (octets t) := by
  have plus : Separates '+' := ⟨by decide, by decide⟩
  have blank : Separates ' ' := ⟨by decide, by decide⟩
  induction t using Text.cut_induction '+' with
  | whole t none => rw [plusToBlank_plain none]
  | cut u v none ih =>
      have blanked : (u ++ '+' :: v).map plusToBlank = u ++ ' ' :: v.map plusToBlank := by
        rw [List.map_append, plusToBlank_plain none, List.map_cons]
        rfl
      rw [blanked, blank.octets_append, plus.octets_append, Utf8.valid_cut_iff,
        Utf8.valid_cut_iff]
      exact and_congr_right' ih

theorem exists_unquote_iff (utf8 : IsUtf8 encoding) (query t : Text) :
    (∃ s, unquote encoding query t = .ok s) ↔ Readable t := by
  simp only [unquote_eq_ok_iff utf8, exists_and_left]
  constructor
  · rintro ⟨escaped, valid⟩
    exact ⟨escaped, (valid_plusToBlank_iff t).mp valid⟩
  · rintro ⟨escaped, valid⟩
    exact ⟨escaped, (valid_plusToBlank_iff t).mpr valid⟩

/-! ### Pairs -/

theorem exists_readPair_iff (utf8 : IsUtf8 encoding) (query part : Text) :
    (∃ pair, readPair encoding query part = .ok pair) ↔ Readable part := by
  have equals : Separates '=' := ⟨by decide, by decide⟩
  unfold readPair
  induction part using Text.cut_induction '=' with
  | whole key none =>
      rw [Text.cut_of_not_mem none, ← exists_unquote_iff utf8 query key]
      constructor
      · rintro ⟨pair, read⟩
        obtain ⟨key, read, -⟩ := bind_eq_ok_iff.mp read
        exact ⟨key, read⟩
      · rintro ⟨key, read⟩
        exact ⟨_, bind_eq_ok_iff.mpr ⟨key, read, rfl⟩⟩
  | cut key value none _ =>
      rw [Text.cut_append none, readable_append_iff equals, ← exists_unquote_iff utf8 query key,
        ← exists_unquote_iff utf8 query value]
      constructor
      · rintro ⟨pair, read⟩
        obtain ⟨key, readKey, read⟩ := bind_eq_ok_iff.mp read
        obtain ⟨value, readValue, -⟩ := bind_eq_ok_iff.mp read
        exact ⟨⟨key, readKey⟩, ⟨value, readValue⟩⟩
      · rintro ⟨⟨key, readKey⟩, ⟨value, readValue⟩⟩
        refine ⟨(key, some value), ?_⟩
        simp only [readKey, readValue, ok_bind]
        rfl

theorem readPair_error (utf8 : IsUtf8 encoding) {query part : Text} {fault : Fault}
    (h : readPair encoding query part = .error fault) :
    ∃ flaw, fault = .malformedQuery flaw query := by
  rcases bind_eq_error_iff.mp h with h | ⟨key, -, h⟩
  · exact unquote_error utf8 h
  · split at h
    next => cases h
    next =>
        rcases bind_eq_error_iff.mp h with h | ⟨value, -, h⟩
        · exact unquote_error utf8 h
        · cases h

/-! ### Queries -/

theorem forall_mem_splitOn_iff {c : Char} (separates : Separates c) (t : Text) :
    (∀ part ∈ t.splitOn c, Readable part) ↔ Readable t := by
  induction t using Text.cut_induction c with
  | whole t none => rw [List.splitOn_eq_singleton none, List.forall_mem_singleton]
  | cut u v none ih =>
      rw [List.splitOn_append_cons_self_of_not_mem none, List.forall_mem_cons, ih,
        readable_append_iff separates]

theorem forall_mem_parts_iff (query : Text) :
    (∀ part ∈ parts query, Readable part) ↔ Readable query := by
  have ampersand : Separates '&' := ⟨by decide, by decide⟩
  rw [← forall_mem_splitOn_iff ampersand, parts, List.forall_mem_filter]
  constructor
  · intro h part member
    cases part with
    | nil => exact readable_nil
    | cons c part => exact h (c :: part) member rfl
  · intro h part member _
    exact h part member

theorem readable_dropLead_iff (query : Text) :
    Readable (Text.dropLead '?' query) ↔ Readable query := by
  have mark : Separates '?' := ⟨by decide, by decide⟩
  cases query with
  | nil => rfl
  | cons c query =>
      rw [Text.dropLead]
      split
      next same =>
          rw [same, ← List.nil_append ('?' :: query), readable_append_iff mark]
          exact (and_iff_right readable_nil).symm
      next => rfl

/-- The pairs of a query can be read if and only if the query can. -/
theorem exists_readPairs_iff (utf8 : IsUtf8 encoding) (query : Text) :
    (∃ pairs, readPairs encoding query = .ok pairs) ↔ Readable query := by
  simp only [readPairs, exists_mapM_eq_ok_iff, exists_readPair_iff utf8]
  rw [forall_mem_parts_iff, readable_dropLead_iff]

/-- A query that cannot be read is reported as a whole, without its question mark. -/
theorem readPairs_error (utf8 : IsUtf8 encoding) {query : Text} {fault : Fault}
    (h : readPairs encoding query = .error fault) :
    ∃ flaw, fault = .malformedQuery flaw (Text.dropLead '?' query) := by
  obtain ⟨part, -, h⟩ := exists_argument_of_mapM_error h
  exact readPair_error utf8 h

end FragmentRouting.Wire
