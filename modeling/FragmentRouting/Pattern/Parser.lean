import FragmentRouting.Pattern.Token

/-!
Reading a pattern from its tokens. The reader keeps a stack of open groups; each has the choices
that are complete and the parts of the choice in progress. Groups take their slots in the order of
their opening parentheses.
-/
namespace FragmentRouting.Pattern

/-- What stands last in a sequence decides whether it can be repeated. -/
inductive Part where
  | plain (p : Pattern)
  | anchor (p : Pattern)
  | repeated (p : Pattern)
  deriving DecidableEq, Repr

def Part.pattern : Part → Pattern
  | .plain p => p
  | .anchor p => p
  | .repeated p => p

/-- An open level: finished choices and the parts of the current one, both latest first. -/
structure Level where
  choices : List Pattern := []
  parts : List Part := []
  deriving DecidableEq, Repr

namespace Level

def current (level : Level) : Pattern := seqAll (level.parts.reverse.map Part.pattern)

def pattern (level : Level) : Pattern := choiceAll (level.current :: level.choices).reverse

def push (part : Part) (level : Level) : Level := { level with parts := part :: level.parts }

end Level

structure Group where
  opened : Nat
  slot : Option Nat
  around : Level
  deriving DecidableEq, Repr

/-- The reader between tokens: the innermost level, the open groups around it from the inside out,
and how many slots are taken. -/
structure Reader where
  level : Level := {}
  groups : List Group := []
  slots : Nat := 0
  deriving DecidableEq, Repr

namespace Reader

def push (part : Part) (r : Reader) : Reader := { r with level := r.level.push part }

/-- Repeats the last part. An anchor cannot be repeated, nor can a repeat. -/
def quantify (least : Nat) (bound : Option Nat) (preference : Preference) (r : Reader) :
    Except Flaw Reader :=
  match r.level.parts with
  | .plain p :: rest =>
    let part := Part.repeated (.repeated least bound preference p)
    .ok { r with level := { r.level with parts := part :: rest } }
  | .repeated _ :: _ => .error .multipleRepeat
  | _ => .error .nothingToRepeat

def close (r : Reader) : Except Flaw Reader :=
  match r.groups with
  | [] => .error .unopenedGroup
  | g :: rest =>
    let body := r.level.pattern
    let whole := match g.slot with
      | some slot => Pattern.group slot body
      | none => body
    .ok { r with level := g.around.push (.plain whole), groups := rest }

def step (r : Reader) (token : Token × Nat) : Except (Flaw × Nat) Reader :=
  let located {α : Type} (x : Except Flaw α) : Except (Flaw × Nat) α :=
    x.mapError fun flaw => (flaw, token.2)
  match token.1 with
  | .one cls => .ok (r.push (.plain (.one cls)))
  | .start => .ok (r.push (.anchor .start))
  | .finish => .ok (r.push (.anchor .finish))
  | .opening captures =>
    let slot := if captures then some r.slots else none
    .ok { level := {}, groups := ⟨token.2, slot, r.level⟩ :: r.groups,
          slots := if captures then r.slots + 1 else r.slots }
  | .closing => located r.close
  | .bar =>
    .ok { r with level := { choices := r.level.current :: r.level.choices, parts := [] } }
  | .quantifier least bound preference => located (r.quantify least bound preference)
  | .flawed flaw => .error (flaw, token.2)

def finish (r : Reader) : Except (Flaw × Nat) Pattern :=
  match r.groups with
  | [] => .ok r.level.pattern
  | g :: _ => .error (.unclosedGroup, g.opened)

end Reader

def parse (source : Text) : Except SyntaxFault Pattern :=
  (((tokens source).foldlM Reader.step {}).bind Reader.finish).mapError fun (flaw, position) =>
    ⟨flaw, position, source⟩

end FragmentRouting.Pattern
