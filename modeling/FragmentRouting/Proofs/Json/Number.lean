import FragmentRouting.Json.Reader
import FragmentRouting.Json.Writer
import FragmentRouting.Proofs.Except

namespace FragmentRouting

namespace Text

theorem hexValue?_of_isDigit {c : Char} (digit : c.isDigit = true) :
    hexValue? c = some (c.toNat - '0'.toNat) ∧ c.toNat - '0'.toNat < 10 := by
  obtain ⟨first, last⟩ := Char.isDigit_iff_toNat.mp digit
  refine ⟨if_pos ⟨first, last⟩, ?_⟩
  have nine : '9'.toNat = '0'.toNat + 9 := by decide
  omega

theorem foldlM_digits {t : Text} (digits : ∀ c ∈ t, c.isDigit = true) (n : Nat) :
    t.foldlM (fun n c => match hexValue? c with
      | some d => if d < 10 then some (n * 10 + d) else none
      | none => none) n = some (Nat.ofDigitChars 10 t n) := by
  induction t generalizing n with
  | nil => rfl
  | cons c t ih =>
      obtain ⟨digit, digits⟩ := List.forall_mem_cons.mp digits
      obtain ⟨value, small⟩ := hexValue?_of_isDigit digit
      rw [List.foldlM_cons, value, Nat.ofDigitChars_cons, Nat.mul_comm 10 n, ← ih digits]
      exact congrArg (· >>= _) (if_pos small)

theorem isDigit_of_mem_ofNat {n : Nat} {c : Char} (h : c ∈ ofNat n) : c.isDigit = true :=
  Nat.isDigit_of_mem_toDigits (by decide) (by decide) h

theorem ofNat_eq_cons (n : Nat) : ∃ d ds, ofNat n = d :: ds ∧ d.isDigit = true := by
  obtain ⟨d, ds, digits⟩ := List.exists_cons_of_ne_nil (Nat.toDigits_ne_nil (n := n) (b := 10))
  refine ⟨d, ds, digits, ?_⟩
  apply isDigit_of_mem_ofNat
  rw [ofNat, digits]
  exact List.mem_cons_self

theorem toNat?_ofNat (n : Nat) : toNat? 10 (ofNat n) = some n := by
  have some_ : (ofNat n).isEmpty = false := List.isEmpty_eq_false_iff.mpr Nat.toDigits_ne_nil
  rw [toNat?, some_, if_neg Bool.false_ne_true]
  refine (foldlM_digits (fun c => isDigit_of_mem_ofNat) 0).trans ?_
  exact congrArg some Nat.ofDigitChars_ten_toDigits

theorem head?_ofNat_ne {n : Nat} (positive : n ≠ 0) : (ofNat n).head? ≠ some '0' := by
  induction n using Nat.strongRecOn with
  | ind n ih =>
      rw [ofNat, Nat.toDigits_eq_if (by decide)]
      split
      next small =>
          have shown : ∀ d : Fin 10, d.val ≠ 0 → [Nat.digitChar d.val].head? ≠ some '0' := by
            decide
          exact shown ⟨n, small⟩ positive
      next large =>
          have tens : n / 10 ≠ 0 := by omega
          rw [List.head?_append_of_ne_nil _ Nat.toDigits_ne_nil]
          exact ih (n / 10) (by omega) tens

theorem length_ofNat_le {n k : Nat} (positive : 0 < k) (small : n < 10 ^ k) :
    (ofNat n).length ≤ k :=
  (Nat.length_toDigits_le_iff (by decide) positive).mpr small

end Text

namespace Json

/-- Whether a numeral ends where a text starts: with no digit, point or exponent. -/
def EndsNumeral (rest : Text) : Prop :=
  ∀ c ∈ rest.head?, c.isDigit = false ∧ c ≠ '.' ∧ c ≠ 'e' ∧ c ≠ 'E'

variable {rest : Text}

theorem wholeOf_ofNat (n : Nat) (ends : EndsNumeral rest) :
    wholeOf (Text.ofNat n ++ rest) = Text.ofNat n := by
  have stops : rest.takeWhile Char.isDigit = [] := by
    cases rest with
    | nil => rfl
    | cons c rest => exact List.takeWhile_cons_of_neg (Bool.eq_false_iff.mp (ends c rfl).1)
  by_cases zero : n = 0
  · rw [zero]
    rfl
  · have taken : (Text.ofNat n ++ rest).takeWhile Char.isDigit = Text.ofNat n := by
      rw [List.takeWhile_append_of_pos fun c => Text.isDigit_of_mem_ofNat, stops, List.append_nil]
    rw [wholeOf, taken]
    intro others starts
    have first : (Text.ofNat n ++ rest).head? = (Text.ofNat n).head? :=
      List.head?_append_of_ne_nil _ Nat.toDigits_ne_nil
    apply Text.head?_ofNat_ne zero
    rw [← first, starts]
    rfl

theorem fractionOf_eq_nil (ends : EndsNumeral rest) : fractionOf rest = [] := by
  unfold fractionOf
  split
  next => exact absurd rfl (ends '.' rfl).2.1
  next => rfl

theorem exponentOf_eq_nil (ends : EndsNumeral rest) : exponentOf rest = [] := by
  cases rest with
  | nil => rfl
  | cons e rest =>
      obtain ⟨_, _, lower, upper⟩ := ends e rfl
      exact if_neg (not_or.mpr ⟨lower, upper⟩)

theorem readNumber?_ofNat {n : Nat} (small : n < 10 ^ digitLimit) (ends : EndsNumeral rest) :
    readNumber? (Text.ofNat n ++ rest) = some (.ok (.int n, rest)) ∧
      readNumber? ('-' :: (Text.ofNat n ++ rest)) = some (.ok (.int (-n), rest)) := by
  have whole := wholeOf_ofNat n ends
  have some_ : (Text.ofNat n).isEmpty = false := List.isEmpty_eq_false_iff.mpr Nat.toDigits_ne_nil
  have short : ¬ digitLimit < (Text.ofNat n).length :=
    (Text.length_ofNat_le (by decide) small).not_gt
  have left : (Text.ofNat n ++ rest).drop (Text.ofNat n).length = rest := List.drop_left
  constructor
  · unfold readNumber?
    split
    next negative body read =>
      split at read
      next digits signed =>
          obtain ⟨d, ds, spelled, digit⟩ := Text.ofNat_eq_cons n
          rw [spelled] at signed
          rw [(List.cons.inj signed).1] at digit
          exact absurd digit (by decide)
      next =>
          obtain ⟨rfl, rfl⟩ := Prod.mk.inj read
          simp only [whole, some_, left, fractionOf_eq_nil ends, exponentOf_eq_nil ends,
            List.length_nil, Nat.add_zero, List.isEmpty_nil, Bool.and_self, if_true, if_neg short,
            Bool.false_eq_true, if_false, Text.toNat?_ofNat, Option.getD_some]
  · simp only [readNumber?, whole, some_, left, fractionOf_eq_nil ends, exponentOf_eq_nil ends,
      List.length_nil, Nat.add_zero, List.isEmpty_nil, Bool.and_self, if_true, if_neg short,
      Bool.false_eq_true, if_false, Text.toNat?_ofNat, Option.getD_some]

/-- A written integer reads as itself, up to where its numeral ends. -/
theorem readNumber?_ofInt {n : Int} (small : n.natAbs < 10 ^ digitLimit)
    (ends : EndsNumeral rest) :
    readNumber? (Text.ofInt n ++ rest) = some (.ok (.int n, rest)) := by
  cases n with
  | ofNat n => exact (readNumber?_ofNat small ends).1
  | negSucc n => exact (readNumber?_ofNat small ends).2

end Json

end FragmentRouting
