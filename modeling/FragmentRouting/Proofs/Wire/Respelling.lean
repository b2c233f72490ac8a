import FragmentRouting.Proofs.Wire.Reading

/-!
A key or value is read run by run, and without a decoder where it has no escapes, but what it reads
as depends on all its bytes at once. So it makes no difference which of its characters are written
as themselves and which as escapes.
-/
namespace FragmentRouting.Wire

/-- Whether a text consists of escapes, one for each of the bytes, with digits in either case. -/
inductive Escapes : List UInt8 → Text → Prop
  | nil : Escapes [] []
  | cons {a b : Char} {high low : Nat} {bytes : List UInt8} {w : Text}
      (first : Text.hexValue? a = some high) (second : Text.hexValue? b = some low)
      (rest : Escapes bytes w) :
      Escapes (.ofNat (high * 16 + low) :: bytes) ('%' :: a :: b :: w)

theorem ne_of_hexValue? {a c : Char} {n : Nat} (digit : Text.hexValue? a = some n)
    (other : Text.hexValue? c = none) : a ≠ c := by
  rintro rfl
  rw [other] at digit
  cases digit

theorem plusToBlank_digit {a : Char} {n : Nat} (digit : Text.hexValue? a = some n) :
    plusToBlank a = a := if_neg (ne_of_hexValue? digit (by decide))

theorem escaped_escape_iff {a b : Char} {high low : Nat} (first : Text.hexValue? a = some high)
    (second : Text.hexValue? b = some low) (t : Text) :
    Escaped ('%' :: a :: b :: t) ↔ Escaped t := by
  have hex : StartsHex (a :: b :: t) := by
    rw [startsHex_cons_cons_iff, first, second]
    exact ⟨rfl, rfl⟩
  have noPercent {c : Char} {n : Nat} (digit : Text.hexValue? c = some n) : c ≠ '%' :=
    ne_of_hexValue? digit (by decide)
  rw [escaped_cons_iff, and_iff_right fun _ => hex,
    escaped_cons_iff, and_iff_right fun same => absurd same (noPercent first),
    escaped_cons_iff, and_iff_right fun same => absurd same (noPercent second)]

namespace Escapes

variable {bytes : List UInt8} {w : Text}

theorem escaped_append_iff (h : Escapes bytes w) (v : Text) : Escaped (w ++ v) ↔ Escaped v := by
  induction h with
  | nil => rfl
  | cons first second _ ih => exact (escaped_escape_iff first second _).trans ih

theorem octets_append (h : Escapes bytes w) (v : Text) : octets (w ++ v) = bytes ++ octets v := by
  induction h with
  | nil => rfl
  | cons first second _ ih =>
      exact (octets_escape first second _).trans (congrArg (_ :: ·) ih)

theorem map_plusToBlank (h : Escapes bytes w) : w.map plusToBlank = w := by
  induction h with
  | nil => rfl
  | cons first second _ ih =>
      rw [List.map_cons, List.map_cons, List.map_cons, plusToBlank_digit first,
        plusToBlank_digit second, ih]
      rfl

/-- Escapes start with a percent sign, so that none before them goes on into them. -/
theorem not_straddles (h : Escapes bytes w) (some_ : bytes ≠ []) (u v : Text) :
    ¬ Straddles u (w ++ v) := by
  cases h with
  | nil => exact absurd rfl some_
  | cons _ _ _ => exact not_straddles_cons (by decide) u _

end Escapes

theorem plusToBlank_eq_percent_iff (c : Char) : plusToBlank c = '%' ↔ c = '%' := by
  by_cases plus : c = '+'
  · rw [plus]
    decide
  · rw [plusToBlank, if_neg plus]

theorem hexValue?_plusToBlank (c : Char) :
    Text.hexValue? (plusToBlank c) = Text.hexValue? c := by
  by_cases plus : c = '+'
  · rw [plus]
    decide
  · rw [plusToBlank, if_neg plus]

theorem startsHex_map_plusToBlank_iff (t : Text) :
    StartsHex (t.map plusToBlank) ↔ StartsHex t := by
  match t with
  | [] => rfl
  | [a] =>
      rw [List.map_singleton]
      generalize plusToBlank a = b
      exact iff_of_false nofun nofun
  | a :: b :: rest =>
      rw [List.map_cons, List.map_cons, startsHex_cons_cons_iff, startsHex_cons_cons_iff,
        hexValue?_plusToBlank, hexValue?_plusToBlank]

theorem straddles_of_map {u v : Text} (h : Straddles (u.map plusToBlank) (v.map plusToBlank)) :
    Straddles u v := by
  obtain ⟨_, _, same, short, hex⟩ := h
  obtain ⟨before, others, rfl, -, same⟩ := List.map_eq_append_iff.mp same
  obtain ⟨c, digits, rfl, percent, rfl⟩ := List.map_eq_cons_iff.mp same
  rw [plusToBlank_eq_percent_iff] at percent
  rw [List.length_map] at short
  rw [← List.map_append, startsHex_map_plusToBlank_iff] at hex
  exact ⟨before, digits, by rw [percent], short, hex⟩

/-- Whether a text is another with one more character escaped, which is no plus sign, no percent
sign and no digit of an escape. -/
inductive Respelled : Text → Text → Prop
  | escape {u v w : Text} {c : Char} (plus : c ≠ '+') (percent : c ≠ '%')
      (free : ¬ Straddles u (c :: v)) (escapes : Escapes (Utf8.encodeChar c) w) :
      Respelled (u ++ c :: v) (u ++ (w ++ v))

namespace Respelled

variable {t t' : Text}

theorem escaped_iff (h : Respelled t t') : Escaped t ↔ Escaped t' := by
  cases h with
  | @escape u v w c _ percent free escapes =>
      have apart := escapes.not_straddles (Utf8.encodeChar_ne_nil c) u v
      rw [escaped_append_iff free, escaped_append_iff apart, escapes.escaped_append_iff,
        escaped_cons_iff, and_iff_right fun same => absurd same percent]

theorem octets_eq (h : Respelled t t') :
    octets (t.map plusToBlank) = octets (t'.map plusToBlank) := by
  cases h with
  | @escape u v w c plus percent free escapes =>
      have plain : plusToBlank c = c := if_neg plus
      have free' : ¬ Straddles (u.map plusToBlank) (c :: v.map plusToBlank) := by
        intro across
        apply free
        apply straddles_of_map
        rwa [List.map_cons, plain]
      have apart := escapes.not_straddles (Utf8.encodeChar_ne_nil c) (u.map plusToBlank)
        (v.map plusToBlank)
      calc octets ((u ++ c :: v).map plusToBlank)
          = octets (u.map plusToBlank ++ c :: v.map plusToBlank) := by
            rw [List.map_append, List.map_cons, plain]
        _ = octets (u.map plusToBlank) ++ (Utf8.encodeChar c ++ octets (v.map plusToBlank)) := by
            rw [octets_append free', octets_cons fun same => absurd same percent]
        _ = octets (u.map plusToBlank ++ (w ++ v.map plusToBlank)) := by
            rw [octets_append apart, escapes.octets_append]
        _ = octets ((u ++ (w ++ v)).map plusToBlank) := by
            rw [List.map_append, List.map_append, escapes.map_plusToBlank]

end Respelled

/-- Whether two readings come to the same: the same text, or a fault of the same kind with the same
query. Faults of one kind may quote the part, its offset and the cause as they found them. -/
inductive SameOutcome : Except Fault Text → Except Fault Text → Prop
  | read (s : Text) : SameOutcome (.ok s) (.ok s)
  | badEscape (offset offset' : Nat) (t t' query : Text) :
      SameOutcome (.error (.malformedQuery (.badEscape offset t) query))
        (.error (.malformedQuery (.badEscape offset' t') query))
  | undecodable (t t' : Text) (cause cause' : Charset.Undecodable) (query : Text) :
      SameOutcome (.error (.malformedQuery (.undecodable t cause) query))
        (.error (.malformedQuery (.undecodable t' cause') query))

variable {encoding : Encoding}

/-- Complete escapes and the bytes as a whole decide what reading comes to. -/
theorem sameOutcome_of_octets (utf8 : IsUtf8 encoding) (query : Text) {t t' : Text}
    (escaped : Escaped t ↔ Escaped t')
    (bytes : octets (t.map plusToBlank) = octets (t'.map plusToBlank)) :
    SameOutcome (unquote encoding query t) (unquote encoding query t') := by
  have read (s : Text) : unquote encoding query t = .ok s ↔ unquote encoding query t' = .ok s := by
    rw [unquote_eq_ok_iff utf8, unquote_eq_ok_iff utf8, escaped, bytes]
  cases first : unquote encoding query t with
  | ok s =>
      rw [(read s).mp first]
      exact .read s
  | error fault =>
      cases second : unquote encoding query t' with
      | ok s =>
          rw [(read s).mpr second] at first
          cases first
      | error fault' =>
          obtain ⟨bad, offset, rfl⟩ | ⟨good, cause, rfl⟩ := unquote_error_cases utf8 first
          · obtain ⟨-, offset', rfl⟩ | ⟨good, -⟩ := unquote_error_cases utf8 second
            · exact .badEscape offset offset' t t' query
            · exact absurd (escaped.mpr good) bad
          · obtain ⟨bad, -⟩ | ⟨-, cause', rfl⟩ := unquote_error_cases utf8 second
            · exact absurd (escaped.mp good) bad
            · exact .undecodable t t' cause cause' query

-- What is quoted may differ: the escape leaves the first byte inside of the same run.
example :
    unquote {} [] "%C3é".toList =
        .error (.malformedQuery (.undecodable "%C3é".toList (.utf8 .truncated)) []) ∧
      unquote {} [] "%C3%C3%A9".toList =
        .error
          (.malformedQuery (.undecodable "%C3%C3%A9".toList (.utf8 .badContinuation)) []) := by
  decide +kernel

/-- A key or value can be read if and only if its escapes are complete and its bytes as a whole,
with blanks for plus signs, are valid UTF-8, and then it reads as the text of these bytes. One more
escape changes nothing of this. -/
theorem unquote_decodes_whole (utf8 : IsUtf8 encoding) (query t : Text) :
    ((∃ s, unquote encoding query t = .ok s) ↔
      Escaped t ∧ (octets (t.map plusToBlank)).toByteArray.IsValidUTF8) ∧
    (∀ s, unquote encoding query t = .ok s →
      (octets (t.map plusToBlank)).toByteArray.utf8Decode? = some s.toArray) ∧
    ∀ t', Respelled t t' →
      SameOutcome (unquote encoding query t) (unquote encoding query t') := by
  refine ⟨?_, ?_, ?_⟩
  · simp only [unquote_eq_ok_iff utf8, exists_and_left]
    rw [Utf8.isValidUTF8_iff]
    rfl
  · intro s read
    obtain ⟨-, bytes⟩ := (unquote_eq_ok_iff utf8).mp read
    exact Utf8.utf8Decode?_eq_some_iff.mpr bytes
  · intro t' respelled
    exact sameOutcome_of_octets utf8 query respelled.escaped_iff respelled.octets_eq

/-- Escapes in both cases on either side of a character that is written as itself. -/
theorem unquote_decodes_whole_price :
    IsUtf8 {} ∧
      Respelled "%C3%A9€+%e2%82%ac".toList "%C3%A9%E2%82%aC+%e2%82%ac".toList ∧
      (Escaped "%C3%A9€+%e2%82%ac".toList ∧
        (octets ("%C3%A9€+%e2%82%ac".toList.map plusToBlank)).toByteArray.IsValidUTF8) ∧
      unquote {} [] "%C3%A9€+%e2%82%ac".toList = .ok "é€ €".toList ∧
      (octets ("%C3%A9€+%e2%82%ac".toList.map plusToBlank)).toByteArray.utf8Decode? =
        some "é€ €".toList.toArray ∧
      SameOutcome (unquote {} [] "%C3%A9€+%e2%82%ac".toList)
        (unquote {} [] "%C3%A9%E2%82%aC+%e2%82%ac".toList) := by
  have utf8 : IsUtf8 {} := fun _ => rfl
  have bytes : Utf8.encodeChar '€' =
      [.ofNat (14 * 16 + 2), .ofNat (8 * 16 + 2), .ofNat (10 * 16 + 12)] := by decide
  have escapes : Escapes (Utf8.encodeChar '€') "%E2%82%aC".toList := by
    rw [bytes]
    exact .cons rfl rfl (.cons rfl rfl (.cons rfl rfl .nil))
  have respelled : Respelled "%C3%A9€+%e2%82%ac".toList "%C3%A9%E2%82%aC+%e2%82%ac".toList :=
    .escape (u := "%C3%A9".toList) (v := "+%e2%82%ac".toList) (by decide) (by decide)
      (not_straddles_cons (by decide) _ _) escapes
  have read : unquote {} [] "%C3%A9€+%e2%82%ac".toList = .ok "é€ €".toList := by
    decide +kernel
  obtain ⟨readable, decoded, outcome⟩ := unquote_decodes_whole utf8 [] "%C3%A9€+%e2%82%ac".toList
  exact ⟨utf8, respelled, readable.mp ⟨_, read⟩, read, decoded _ read, outcome _ respelled⟩

end FragmentRouting.Wire
