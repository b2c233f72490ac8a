import FragmentRouting.Proofs.Charset.Lossless
import FragmentRouting.Proofs.Text.Basic
import FragmentRouting.Wire.Percent

namespace FragmentRouting.Wire

def isWritten (c : Char) : Bool :=
  c.isAlphanum || c == '_' || c == '.' || c == '-' || c == '~' || c == '+' || c == '%'

theorem toNat_of_isWritten {c : Char} (h : isWritten c = true) : c.toNat < 0x80 := by
  simp only [isWritten, Bool.or_eq_true, beq_iff_eq, or_assoc, Text.isAlphanum_iff] at h
  rcases h with h | h | h | rfl | rfl | rfl | rfl | rfl | rfl
  all_goals first | omega | decide

theorem upperHexDigit_facts : ∀ d : Fin 16,
    isWritten (upperHexDigit d) = true ∧ upperHexDigit d ≠ '%' ∧ upperHexDigit d ≠ '+' ∧
      Text.hexValue? (upperHexDigit d) = some d.val := by
  decide

/-- The three forms in which a byte is written. -/
theorem quoteByte_cases (b : UInt8) :
    (isUnreserved b = true ∧ quoteByte b = [Char.ofNat b.toNat]) ∨
      (b = 0x20 ∧ quoteByte b = ['+']) ∨
      ∃ high low : Fin 16, b.toNat = high * 16 + low ∧
        quoteByte b = ['%', upperHexDigit high, upperHexDigit low] := by
  unfold quoteByte
  split
  · next h => exact .inl ⟨h, rfl⟩
  split
  · next h => exact .inr (.inl ⟨h, rfl⟩)
  · have small : b.toNat < 256 := b.toNat_lt
    refine .inr (.inr ⟨⟨b.toNat / 16, by omega⟩, ⟨b.toNat % 16, by omega⟩, ?_, rfl⟩)
    exact (Nat.div_add_mod' b.toNat 16).symm

theorem isWritten_of_isUnreserved {b : UInt8} (h : isUnreserved b = true) :
    isWritten (Char.ofNat b.toNat) = true := by
  simp only [isUnreserved, Bool.or_eq_true] at h
  simp only [isWritten, Bool.or_eq_true]
  exact .inl (.inl h)

theorem toNat_ofNat_of_byte (b : UInt8) : (Char.ofNat b.toNat).toNat = b.toNat := by
  have small : b.toNat < 256 := b.toNat_lt
  have valid : b.toNat.isValidChar := .inl (by omega)
  rw [Char.ofNat, dif_pos valid]
  rfl

theorem ne_of_isUnreserved {b : UInt8} (h : isUnreserved b = true) :
    Char.ofNat b.toNat ≠ '%' ∧ Char.ofNat b.toNat ≠ '+' := by
  constructor
  all_goals
    intro same
    rw [isUnreserved, same] at h
    exact absurd h (by decide)

theorem isWritten_of_mem_quoteByte {b : UInt8} {c : Char} (h : c ∈ quoteByte b) :
    isWritten c = true := by
  obtain ⟨plain, same⟩ | ⟨-, same⟩ | ⟨high, low, -, same⟩ := quoteByte_cases b
  · rw [same, List.mem_singleton] at h
    rw [h]
    exact isWritten_of_isUnreserved plain
  · rw [same, List.mem_singleton] at h
    rw [h]
    rfl
  · simp only [same, List.mem_cons, List.not_mem_nil, or_false] at h
    rcases h with rfl | rfl | rfl
    · rfl
    · exact (upperHexDigit_facts high).1
    · exact (upperHexDigit_facts low).1

theorem badEscapeFrom_cons_ne {c : Char} (h : c ≠ '%') (offset : Nat) (t : Text) :
    badEscapeFrom offset (c :: t) = badEscapeFrom (offset + 1) t := by
  rw [badEscapeFrom]
  exact h

theorem badEscapeFrom_quoteByte (b : UInt8) (offset : Nat) (t : Text) :
    badEscapeFrom offset (quoteByte b ++ t) = badEscapeFrom (offset + (quoteByte b).length) t := by
  obtain ⟨plain, same⟩ | ⟨-, same⟩ | ⟨high, low, -, same⟩ := quoteByte_cases b
  · rw [same]
    exact badEscapeFrom_cons_ne (ne_of_isUnreserved plain).1 offset t
  · rw [same]
    exact badEscapeFrom_cons_ne (by decide) offset t
  · obtain ⟨-, highPlain, -, highValue⟩ := upperHexDigit_facts high
    obtain ⟨-, lowPlain, -, lowValue⟩ := upperHexDigit_facts low
    rw [same]
    simp only [List.cons_append, List.nil_append, badEscapeFrom, highValue, lowValue,
      Option.isSome_some, Bool.and_self, if_true]
    rfl

theorem unquoteBytes_cons_ne {c : Char} (h : c ≠ '%') (t : Text) :
    unquoteBytes (c :: t) = .ofNat c.toNat :: unquoteBytes t := by
  rw [unquoteBytes]
  intro _ _ _ percent
  exact absurd percent h

theorem unquoteBytes_quoteByte (b : UInt8) (t : Text) :
    unquoteBytes ((quoteByte b).map plusToBlank ++ t) = b :: unquoteBytes t := by
  obtain ⟨plain, same⟩ | ⟨rfl, same⟩ | ⟨high, low, value, same⟩ := quoteByte_cases b
  · obtain ⟨noPercent, noPlus⟩ := ne_of_isUnreserved plain
    rw [same, List.map_singleton, List.singleton_append, plusToBlank, if_neg noPlus,
      unquoteBytes_cons_ne noPercent, toNat_ofNat_of_byte, UInt8.ofNat_toNat]
  · rw [same]
    exact unquoteBytes_cons_ne (by decide) t
  · obtain ⟨-, -, highNoPlus, highValue⟩ := upperHexDigit_facts high
    obtain ⟨-, -, lowNoPlus, lowValue⟩ := upperHexDigit_facts low
    have noPlus : (quoteByte b).map plusToBlank = quoteByte b := by
      rw [same]
      simp only [List.map_cons, List.map_nil, plusToBlank, highNoPlus, lowNoPlus, if_false]
      rfl
    rw [noPlus, same]
    simp only [List.cons_append, List.nil_append, unquoteBytes, highValue, lowValue]
    rw [← value, UInt8.ofNat_toNat]

theorem isWritten_of_mem_quoteBytes {bytes : List UInt8} {c : Char} (h : c ∈ quoteBytes bytes) :
    isWritten c = true := by
  obtain ⟨b, -, hc⟩ := List.mem_flatMap.mp h
  exact isWritten_of_mem_quoteByte hc

theorem badEscapeFrom_quoteBytes (bytes : List UInt8) (offset : Nat) :
    badEscapeFrom offset (quoteBytes bytes) = none := by
  induction bytes generalizing offset with
  | nil => rfl
  | cons b bytes ih =>
      rw [quoteBytes, List.flatMap_cons, badEscapeFrom_quoteByte]
      exact ih _

theorem unquoteBytes_quoteBytes (bytes : List UInt8) :
    unquoteBytes ((quoteBytes bytes).map plusToBlank) = bytes := by
  induction bytes with
  | nil => rfl
  | cons b bytes ih =>
      rw [quoteBytes, List.flatMap_cons, List.map_append, unquoteBytes_quoteByte]
      exact congrArg (b :: ·) ih

theorem unquoteBytes_plain {t : Text} (h : '%' ∉ t) :
    unquoteBytes t = t.map fun c => .ofNat c.toNat := by
  induction t with
  | nil => rfl
  | cons c t ih =>
      rw [List.mem_cons, not_or] at h
      rw [unquoteBytes_cons_ne (Ne.symm h.1), ih h.2, List.map_cons]

theorem decodeRuns_ascii (decode : List UInt8 → Except Fault Text) {t : Text}
    (h : ∀ c ∈ t, c.toNat < 128) (run : Text) :
    decodeRuns decode run t = decodeRuns.flush decode (t.reverse ++ run) := by
  induction t generalizing run with
  | nil => rfl
  | cons c t ih =>
      rw [decodeRuns, if_pos (h c List.mem_cons_self), List.reverse_cons, List.append_assoc]
      exact ih (fun d hd => h d (List.mem_cons_of_mem c hd)) (c :: run)

theorem toNat_plusToBlank_lt {c : Char} (h : c.toNat < 0x80) : (plusToBlank c).toNat < 0x80 := by
  unfold plusToBlank
  split
  · decide
  · exact h

/-- An encoding that stands for UTF-8 in both directions. -/
def IsUtf8 (encoding : Encoding) : Prop :=
  ∀ decoding, charsetOf decoding encoding = .ok (.known .utf8)

/-- An encoding that stands for a character set in both directions. -/
def Names (encoding : Encoding) (charset : Charset) : Prop :=
  ∀ decoding, charsetOf decoding encoding = .ok (.known charset)

variable {encoding : Encoding} {charset : Charset}

theorem names_of_ofName? {name : Text} (named : encoding.setting = .text name)
    (spelled : Charset.ofName? name = some charset) : Names encoding charset := by
  intro decoding
  rw [charsetOf, named]
  simp only [spelled]

/-- What is written are the bytes of the text, if the set has its characters. -/
theorem quote_eq_ok_iff (names : Names encoding charset) {t w : Text} :
    quote encoding t = .ok w ↔ ∃ bytes, charset.encode t = .ok bytes ∧ quoteBytes bytes = w := by
  cases t with
  | nil =>
      constructor
      · intro h
        exact ⟨[], rfl, Except.ok.inj h⟩
      · rintro ⟨bytes, none_, rfl⟩
        rw [← Except.ok.inj none_]
        rfl
  | cons c t =>
      rw [quote, List.isEmpty_cons, if_neg Bool.false_ne_true, names false, ok_bind,
        Transcoder.encode]
      cases charset.encode (c :: t) with
      | ok bytes =>
          constructor
          · intro h
            exact ⟨bytes, rfl, Except.ok.inj h⟩
          · rintro ⟨_, same, rfl⟩
            rw [← Except.ok.inj same]
            rfl
      | error flaw => exact iff_of_false nofun nofun

theorem decodeRun_eq (names : Names encoding charset) (query t : Text) (bytes : List UInt8) :
    decodeRun encoding query t bytes =
      (charset.decode bytes).mapError fun cause =>
        .malformedQuery (.undecodable t cause) query := by
  rw [decodeRun, names true, ok_bind, Transcoder.decode]
  cases charset.decode bytes <;> rfl

theorem quote_utf8 (utf8 : IsUtf8 encoding) (t : Text) :
    quote encoding t = .ok (quoteBytes (Utf8.encode t)) :=
  (quote_eq_ok_iff utf8).mpr ⟨_, Charset.encode_utf8 t, rfl⟩

/-- Whichever way a written text is read, with escapes or without, its bytes decide. -/
theorem unquote_quoteBytes (names : Names encoding charset) (query : Text) {t : Text}
    {bytes : List UInt8} (encoded : charset.encode t = .ok bytes) :
    unquote encoding query (quoteBytes bytes) = .ok t := by
  have ascii : ∀ c ∈ (quoteBytes bytes).map plusToBlank, c.toNat < 0x80 := by
    intro c hc
    obtain ⟨d, hd, rfl⟩ := List.mem_map.mp hc
    exact toNat_plusToBlank_lt (toNat_of_isWritten (isWritten_of_mem_quoteBytes hd))
  have clean : badEscape? (quoteBytes bytes) = none := badEscapeFrom_quoteBytes bytes 0
  have same := unquoteBytes_quoteBytes bytes
  simp only [unquote, clean]
  generalize (quoteBytes bytes).map plusToBlank = blanked at ascii same ⊢
  by_cases escapes : '%' ∈ blanked
  · have notEmpty : blanked ≠ [] := List.ne_nil_of_mem escapes
    rw [if_pos (List.contains_iff_mem.mpr escapes), decodeRuns_ascii _ ascii, decodeRuns.flush,
      List.append_nil, List.reverse_reverse, same, if_neg (by simpa using notEmpty),
      decodeRun_eq names, Charset.decode_of_encode encoded]
    rfl
  · have plain : charset.encode blanked = .ok bytes := by
      rw [Charset.encode_ascii ascii, ← unquoteBytes_plain escapes, same]
    rw [if_neg (by simpa using escapes), Charset.eq_of_encode plain encoded]

end FragmentRouting.Wire
