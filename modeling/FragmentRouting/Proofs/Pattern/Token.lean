import FragmentRouting.Pattern.Token
import Mathlib

namespace FragmentRouting.Pattern

/-- What stands in a text, token by token, after passing over some characters. -/
def kindsFrom : Nat → Text → List Token
  | _, [] => []
  | covered + 1, _ :: t => kindsFrom covered t
  | 0, c :: t => (tokenAt c t).1 :: kindsFrom (tokenAt c t).2.2 t

/-- What stands in a text, token by token. -/
def kinds (t : Text) : List Token := kindsFrom 0 t

theorem map_fst_tokensFrom (position covered : Nat) (t : Text) :
    (tokensFrom position covered t).map Prod.fst = kindsFrom covered t := by
  induction t generalizing position covered with
  | nil =>
      cases covered with
      | zero => rfl
      | succ covered => rfl
  | cons c t ih =>
      cases covered with
      | zero =>
          rw [tokensFrom, kindsFrom, ← ih (position + 1)]
          rfl
      | succ covered => exact ih (position + 1) covered

theorem map_fst_tokens (t : Text) : (tokens t).map Prod.fst = kinds t :=
  map_fst_tokensFrom 0 0 t

theorem kindsFrom_append (u t : Text) : kindsFrom u.length (u ++ t) = kinds t := by
  induction u with
  | nil => rfl
  | cons c u ih => exact ih

theorem kinds_cons {c : Char} {u t : Text} {token : Token} {offset : Nat}
    (h : tokenAt c (u ++ t) = (token, offset, u.length)) :
    kinds (c :: (u ++ t)) = token :: kinds t := by
  rw [kinds, kindsFrom, h, ← kindsFrom_append u t]

/-- Whether a text goes on after a repeat as if the repeat were complete. -/
structure Ends (t : Text) : Prop where
  fewer : t.head? ≠ some '?'
  most : t.head? ≠ some '+'

theorem quantifierOf_ends (least : Nat) (bound : Option Nat) {t : Text} (ends : Ends t) :
    quantifierOf least bound 0 t = (.quantifier least bound .more, 0) := by
  unfold quantifierOf
  split
  · exact absurd rfl ends.fewer
  · exact absurd rfl ends.most
  · rfl

theorem tokenAt_star {t : Text} (ends : Ends t) :
    tokenAt '*' t = (.quantifier 0 none .more, 0, 0) := by
  change ((quantifierOf 0 none 0 t).1, 0, (quantifierOf 0 none 0 t).2) = _
  rw [quantifierOf_ends 0 none ends]

theorem tokenAt_mark {t : Text} (ends : Ends t) :
    tokenAt '?' t = (.quantifier 0 (some 1) .more, 0, 0) := by
  change ((quantifierOf 0 (some 1) 0 t).1, 0, (quantifierOf 0 (some 1) 0 t).2) = _
  rw [quantifierOf_ends 0 (some 1) ends]

theorem tokenAt_opening {t : Text} (plain : t.head? ≠ some '?') :
    tokenAt '(' t = (.opening true, 0, 0) := by
  cases t with
  | nil => rfl
  | cons c t =>
      have differs : c ≠ '?' := fun same => plain (congrArg some same)
      unfold tokenAt
      simp only
      split
      next same => exact absurd (List.cons.inj same).1 differs
      next same => exact absurd (List.cons.inj same).1 differs
      next same => exact absurd (List.cons.inj same).1 differs
      next => rfl

theorem escapedItem?_of_not_alphanum {c : Char} (other : c.isAlphanum = false) :
    escapedItem? c = some (.range c c) := by
  unfold escapedItem?
  split
  case h_13 => rw [other, if_neg Bool.false_ne_true]
  all_goals exact absurd other (by decide)

theorem tokenAt_escape {c : Char} (other : c.isAlphanum = false) (t : Text) :
    tokenAt '\\' (c :: t) = (.one (.single c), 0, 1) := by
  unfold tokenAt
  simp only [escapedItem?_of_not_alphanum other]
  rfl

end FragmentRouting.Pattern
