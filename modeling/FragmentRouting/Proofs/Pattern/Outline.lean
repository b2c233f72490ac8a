import FragmentRouting.Pattern.Parser
import FragmentRouting.Proofs.Except
import FragmentRouting.Proofs.Pattern.Token

namespace FragmentRouting.Pattern

/-- What stands last in a sequence. -/
inductive Ending where
  | nothing
  | plain
  | anchor
  | repeated
  deriving DecidableEq, Repr

def Part.ending : Part → Ending
  | .plain _ => .plain
  | .anchor _ => .anchor
  | .repeated _ => .repeated

/-- What decides whether a reader can go on. -/
structure Outline where
  ending : Ending := .nothing
  depth : Nat := 0
  deriving DecidableEq, Repr

namespace Outline

def close (o : Outline) : Option Outline :=
  match o.depth with
  | 0 => none
  | depth + 1 => some ⟨.plain, depth⟩

def quantify (o : Outline) : Option Outline :=
  match o.ending with
  | .plain => some { o with ending := .repeated }
  | _ => none

def step (o : Outline) : Token → Option Outline
  | .one _ => some { o with ending := .plain }
  | .start | .finish => some { o with ending := .anchor }
  | .opening _ => some ⟨.nothing, o.depth + 1⟩
  | .closing => o.close
  | .bar => some { o with ending := .nothing }
  | .quantifier .. => o.quantify
  | .flawed _ => none

def run (tokens : List Token) (o : Outline) : Option Outline := tokens.foldlM step o

theorem run_cons (token : Token) (rest : List Token) (o : Outline) :
    o.run (token :: rest) = (o.step token).bind (run rest) := List.foldlM_cons

theorem run_append (front back : List Token) (o : Outline) :
    run (front ++ back) o = (run front o).bind (run back) := List.foldlM_append

theorem run_cons_congr {rest rest' : List Token} (same : run rest = run rest') (token : Token) :
    run (token :: rest) = run (token :: rest') := by
  funext o
  rw [run_cons, run_cons, same]

theorem run_append_congr {front front' back back' : List Token} (first : run front = run front')
    (second : run back = run back') : run (front ++ back) = run (front' ++ back') := by
  funext o
  rw [run_append, run_append, first, second]

end Outline

def Reader.outline (r : Reader) : Outline where
  ending := (r.level.parts.head?.map Part.ending).getD .nothing
  depth := r.groups.length

namespace Reader

theorem outline_close (r : Reader) :
    r.close.toOption.map Reader.outline = r.outline.close := by
  obtain ⟨level, groups, slots⟩ := r
  cases groups with
  | nil => rfl
  | cons g rest => rfl

theorem outline_quantify (least : Nat) (bound : Option Nat) (preference : Preference) (r : Reader) :
    (r.quantify least bound preference).toOption.map Reader.outline = r.outline.quantify := by
  obtain ⟨⟨choices, parts⟩, groups, slots⟩ := r
  cases parts with
  | nil => rfl
  | cons part rest =>
      cases part with
      | plain p => rfl
      | anchor p => rfl
      | repeated p => rfl

theorem toOption_mapError {ε ε' α : Type} (f : ε → ε') (x : Except ε α) :
    (x.mapError f).toOption = x.toOption := by
  cases x with
  | error e => rfl
  | ok a => rfl

theorem outline_step (r : Reader) (token : Token × Nat) :
    (r.step token).toOption.map Reader.outline = r.outline.step token.1 := by
  obtain ⟨kind, position⟩ := token
  cases kind with
  | one cls => rfl
  | start => rfl
  | finish => rfl
  | opening captures => rfl
  | closing =>
      rw [step, toOption_mapError]
      exact outline_close r
  | bar => rfl
  | quantifier least bound preference =>
      rw [step, toOption_mapError]
      exact outline_quantify least bound preference r
  | flawed flaw => rfl

theorem outline_run (located : List (Token × Nat)) (r : Reader) :
    (located.foldlM Reader.step r).toOption.map Reader.outline =
      r.outline.run (located.map Prod.fst) := by
  induction located generalizing r with
  | nil => rfl
  | cons token located ih =>
      have here := outline_step r token
      rw [List.foldlM_cons, List.map_cons, Outline.run, List.foldlM_cons, ← here]
      cases r.step token with
      | error fault => rfl
      | ok r' => exact ih r'

end Reader

/-- A source can be read if its tokens can and leave no group open. -/
theorem exists_parse_iff (source : Text) :
    (∃ p, parse source = .ok p) ↔ ∃ ending, Outline.run (kinds source) {} = some ⟨ending, 0⟩ := by
  have outline : _ = Outline.run (kinds source) {} :=
    (Reader.outline_run (tokens source) {}).trans (by rw [map_fst_tokens]; rfl)
  rw [← outline, parse]
  simp only [mapError_eq_ok_iff]
  cases (tokens source).foldlM Reader.step {} with
  | error fault => exact iff_of_false nofun nofun
  | ok r =>
      obtain ⟨level, groups, slots⟩ := r
      cases groups with
      | nil => exact iff_of_true ⟨_, rfl⟩ ⟨_, rfl⟩
      | cons g rest =>
          refine iff_of_false nofun ?_
          rintro ⟨ending, same⟩
          cases congrArg (Option.map Outline.depth) same

end FragmentRouting.Pattern
