import FragmentRouting.Json.Reader
import FragmentRouting.Json.Writer
import FragmentRouting.Proofs.Except

namespace FragmentRouting

namespace CodePoints

def units (c : Char) : CodePoints :=
  if c.toNat < 0x10000 then [c.toNat]
  else [0xD800 + (c.toNat - 0x10000) / 0x400, 0xDC00 + (c.toNat - 0x10000) % 0x400]

theorem toNat_lt (c : Char) : c.toNat < 0x110000 := by
  rcases c.valid with low | high
  · exact low.trans (by decide)
  · exact high.2

theorem isSurrogate_char (c : Char) : isSurrogate c.toNat = false := by
  have valid : c.toNat < 0xD800 ∨ 0xDFFF < c.toNat ∧ c.toNat < 0x110000 := c.valid
  simp only [isSurrogate, isHighSurrogate, isLowSurrogate, Bool.or_eq_false_iff,
    Bool.and_eq_false_iff, decide_eq_false_iff_not]
  omega

theorem toText_cons {n : Nat} (single : isHighSurrogate n = false) (rest : CodePoints) :
    toText (n :: rest) = toChar n :: toText rest := by
  cases rest with
  | nil => rfl
  | cons m rest => rw [toText, single, Bool.false_and, if_neg Bool.false_ne_true]

theorem toText_units (c : Char) (rest : CodePoints) :
    toText (units c ++ rest) = c :: toText rest := by
  have below := toNat_lt c
  by_cases basic : c.toNat < 0x10000
  · have whole := isSurrogate_char c
    have single : isHighSurrogate c.toNat = false := (Bool.or_eq_false_iff.mp whole).1
    rw [units, if_pos basic, List.singleton_append, toText_cons single, toChar, whole,
      if_neg Bool.false_ne_true, Char.ofNat_toNat]
  · have high : isHighSurrogate (0xD800 + (c.toNat - 0x10000) / 0x400) = true := by
      simp only [isHighSurrogate, Bool.and_eq_true, decide_eq_true_eq]
      omega
    have low : isLowSurrogate (0xDC00 + (c.toNat - 0x10000) % 0x400) = true := by
      simp only [isLowSurrogate, Bool.and_eq_true, decide_eq_true_eq]
      omega
    have joined : 0x10000 + (0xD800 + (c.toNat - 0x10000) / 0x400 - 0xD800) * 0x400 +
        (0xDC00 + (c.toNat - 0x10000) % 0x400 - 0xDC00) = c.toNat := by
      omega
    rw [units, if_neg basic, List.cons_append, List.singleton_append, toText, high, low,
      Bool.and_self, if_pos rfl, pairChar, joined, Char.ofNat_toNat]

/-- The units of a text spell it. -/
theorem toText_flatMap_units (t : Text) : toText (t.flatMap units) = t := by
  induction t with
  | nil => rfl
  | cons c t ih => rw [List.flatMap_cons, toText_units, ih]

end CodePoints

namespace Json

open CodePoints (toNat_lt units)

theorem hexValue?_hexDigit {d : Nat} (digit : d < 16) :
    Text.hexValue? (Text.hexDigit d) = some d := by
  have all : ∀ d : Fin 16, Text.hexValue? (Text.hexDigit d) = some d.val := by decide
  exact all ⟨d, digit⟩

theorem unit?_hexDigits {n : Nat} (unit : n < 0x10000) :
    unit? (Text.hexDigit (n / 4096 % 16)) (Text.hexDigit (n / 256 % 16))
      (Text.hexDigit (n / 16 % 16)) (Text.hexDigit (n % 16)) = some n := by
  have digit (k : Nat) : k % 16 < 16 := Nat.mod_lt k (by decide)
  simp only [unit?, Text.toNat?, List.isEmpty_cons, Bool.false_eq_true, if_false, List.foldlM_cons,
    hexValue?_hexDigit (digit _), digit, if_true, List.foldlM_nil, Option.bind_eq_bind,
    Option.bind_some, Option.pure_def, Option.some.injEq]
  omega

theorem escapeUnit_eq (n : Nat) :
    escapeUnit n = ['\\', 'u', Text.hexDigit (n / 4096 % 16), Text.hexDigit (n / 256 % 16),
      Text.hexDigit (n / 16 % 16), Text.hexDigit (n % 16)] := by
  have spelled : escapeUnit n = ['\\', 'u', Text.hexDigit (n / 4096 % 16),
      Text.hexDigit (n / 256 % 16), Text.hexDigit (n / 16 % 16), Text.hexDigit (n / 1 % 16)] := rfl
  rw [spelled, Nat.div_one]

theorem readUnits_escapeUnit (opened : Nat) {n : Nat} (unit : n < 0x10000) {rest : Text}
    (more : rest ≠ []) :
    readUnits opened (escapeUnit n ++ rest) = (readUnits opened rest).map (addUnit n) := by
  obtain ⟨e, rest, rfl⟩ := List.exists_cons_of_ne_nil more
  rw [escapeUnit_eq]
  simp only [List.cons_append, List.nil_append, readUnits]
  rw [unit?_hexDigits unit]

theorem readUnits_escaped (opened : Nat) {c d : Char} (escape : escaped? c = some d) (rest : Text) :
    readUnits opened ('\\' :: c :: rest) = (readUnits opened rest).map (addUnit d.toNat) := by
  have unmarked : c ≠ 'u' := by
    rintro rfl
    cases escape
  rw [readUnits]
  · rw [escape]
  · exact fun _ _ _ _ _ _ same => absurd same unmarked
  · exact unmarked

theorem readUnits_plain (opened : Nat) {c : Char} (quote : c ≠ '"') (escape : c ≠ '\\')
    (shown : 0x20 ≤ c.toNat) (rest : Text) :
    readUnits opened (c :: rest) = (readUnits opened rest).map (addUnit c.toNat) := by
  rw [readUnits]
  · exact if_neg shown.not_gt
  · exact quote
  · exact fun same _ => escape same
  · exact fun _ _ _ _ _ _ same _ => escape same
  · exact fun _ same _ => escape same
  · exact fun _ _ same _ => escape same

theorem readUnits_writeChar (opened : Nat) (c : Char) {rest : Text} (more : rest ≠ []) :
    readUnits opened (writeChar c ++ rest) =
      (readUnits opened rest).map fun read => (units c ++ read.1, read.2) := by
  have single {c : Char} (basic : c.toNat < 0x10000) :
      ((readUnits opened rest).map fun read => (units c ++ read.1, read.2)) =
        (readUnits opened rest).map (addUnit c.toNat) := by
    rw [units, if_pos basic]
    rfl
  have escaped {d e : Char} (escape : escaped? d = some e) (basic : e.toNat < 0x10000)
      (same : c = e) :
      readUnits opened (['\\', d] ++ rest) =
        (readUnits opened rest).map fun read => (units c ++ read.1, read.2) := by
    subst same
    rw [single basic]
    exact readUnits_escaped opened escape rest
  fun_cases writeChar c with
  | case1 quoted =>
      rcases quoted with rfl | rfl
      · exact escaped rfl (by decide) rfl
      · exact escaped rfl (by decide) rfl
  | case2 _ same => exact escaped rfl (by decide) same
  | case3 _ _ same => exact escaped rfl (by decide) same
  | case4 _ _ _ same => exact escaped rfl (by decide) same
  | case5 _ _ _ _ same => exact escaped rfl (by decide) same
  | case6 _ _ _ _ _ same => exact escaped rfl (by decide) same
  | case7 plain _ _ _ _ _ shown =>
      rw [not_or] at plain
      have last : c.toNat ≤ '~'.toNat := shown.2
      rw [single (last.trans_lt (by decide))]
      exact readUnits_plain opened plain.1 plain.2 shown.1 rest
  | case8 _ _ _ _ _ _ _ basic =>
      rw [single basic]
      exact readUnits_escapeUnit opened basic more
  | case9 _ _ _ _ _ _ _ wide n =>
      have below := toNat_lt c
      rw [List.append_assoc, readUnits_escapeUnit opened (by omega) (by simp [escapeUnit]),
        readUnits_escapeUnit opened (by omega) more, units, if_neg wide]
      cases readUnits opened rest with
      | error stop => rfl
      | ok read => rfl

/-- What was written for the characters of a text reads, up to the closing quote, as their units. -/
theorem readUnits_flatMap_writeChar (opened : Nat) (t rest : Text) :
    readUnits opened (t.flatMap writeChar ++ '"' :: rest) = .ok (t.flatMap units, rest) := by
  induction t with
  | nil => rfl
  | cons c t ih =>
      have more : t.flatMap writeChar ++ '"' :: rest ≠ [] :=
        List.append_ne_nil_of_right_ne_nil _ (List.cons_ne_nil _ _)
      rw [List.flatMap_cons, List.append_assoc, readUnits_writeChar opened c more, ih]
      rfl

theorem readString_writeText (opened : Nat) (t rest : Text) :
    readString opened (t.flatMap writeLetter ++ '"' :: rest) = .ok (t, rest) := by
  have letters : t.flatMap writeLetter = t.flatMap writeChar := rfl
  rw [readString, letters, readUnits_flatMap_writeChar]
  exact congrArg (fun read => Except.ok (read, rest)) (CodePoints.toText_flatMap_units t)

end Json

end FragmentRouting
