import FragmentRouting.Proofs.Text.Basic
import FragmentRouting.Proofs.Wire.Pairs

namespace FragmentRouting.Wire

theorem parts_append (u v : Text) : parts (u ++ '&' :: v) = parts u ++ parts v := by
  rw [parts, List.splitOn_append_cons_self, List.filter_append]
  rfl

theorem parts_cons (v : Text) : parts ('&' :: v) = parts v := parts_append [] v

theorem parts_dropLead_append (u v : Text) :
    parts (Text.dropLead '?' (u ++ '&' :: v)) = parts (Text.dropLead '?' u) ++ parts v := by
  rw [Text.dropLead_append (by decide), parts_append]

theorem decodeRuns_congr {decode decode' : List UInt8 → Except Fault Text}
    (agree : ∀ bytes t, decode bytes = .ok t ↔ decode' bytes = .ok t) (run t s : Text) :
    decodeRuns decode run t = .ok s ↔ decodeRuns decode' run t = .ok s := by
  have flushed (run s : Text) :
      decodeRuns.flush decode run = .ok s ↔ decodeRuns.flush decode' run = .ok s := by
    unfold decodeRuns.flush
    split
    next => rfl
    next => exact agree _ s
  induction t generalizing run s with
  | nil => exact flushed run s
  | cons c t ih =>
      rw [decodeRuns, decodeRuns]
      split
      next => exact ih (c :: run) s
      next => simp only [bind_eq_ok_iff, flushed, ih]

variable {encoding : Encoding}

theorem unquote_congr (query query' t s : Text) :
    unquote encoding query t = .ok s ↔ unquote encoding query' t = .ok s := by
  unfold unquote
  cases badEscape? t with
  | some offset => exact iff_of_false nofun nofun
  | none =>
      dsimp only
      split
      next =>
          apply decodeRuns_congr
          intro bytes decoded
          simp only [decodeRun, bind_eq_ok_iff, mapError_eq_ok_iff]
      next => rfl

theorem readPair_congr (query query' part : Text) (pair : Pair Text) :
    readPair encoding query part = .ok pair ↔ readPair encoding query' part = .ok pair := by
  unfold readPair
  rcases Text.cut '=' part with ⟨key, _ | value⟩
  · simp only [bind_eq_ok_iff, unquote_congr query query' key]
  · simp only [bind_eq_ok_iff, unquote_congr query query' key,
      unquote_congr query query' value]

theorem readPairs_eq_ok_iff {query : Text} {pairs : List (Pair Text)} :
    readPairs encoding query = .ok pairs ↔
      (parts (Text.dropLead '?' query)).mapM (readPair encoding []) = .ok pairs := by
  simp only [readPairs, mapM_eq_ok_iff, readPair_congr (Text.dropLead '?' query) []]

theorem readPairs_congr {query query' : Text}
    (same : parts (Text.dropLead '?' query) = parts (Text.dropLead '?' query'))
    (pairs : List (Pair Text)) :
    readPairs encoding query = .ok pairs ↔ readPairs encoding query' = .ok pairs := by
  rw [readPairs_eq_ok_iff, readPairs_eq_ok_iff, same]

/-- Joined queries can be read if each of them can, and have the pairs of the first and then those
of the second. -/
theorem readPairs_append_iff {u v : Text} (unled : v.head? ≠ some '?')
    {pairs : List (Pair Text)} :
    readPairs encoding (u ++ '&' :: v) = .ok pairs ↔
      ∃ front back, readPairs encoding u = .ok front ∧ readPairs encoding v = .ok back ∧
        pairs = front ++ back := by
  simp only [readPairs_eq_ok_iff, parts_dropLead_append, Text.dropLead_of_head? unled,
    List.mapM_append, bind_eq_ok_iff]
  constructor
  · rintro ⟨front, first, back, second, same⟩
    exact ⟨front, back, first, second, (Except.ok.inj same).symm⟩
  · rintro ⟨front, back, first, second, rfl⟩
    exact ⟨front, first, back, second, rfl⟩

end FragmentRouting.Wire
