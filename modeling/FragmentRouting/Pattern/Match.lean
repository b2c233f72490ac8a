import FragmentRouting.Fault
import FragmentRouting.Pattern.Basic
import FragmentRouting.Pattern.Parser

/-!
Matching a pattern from the start of a text by backtracking: choices are tried in order, repeats
with more or with fewer rounds first, and the first way that lets the rest succeed wins. A repeat
that allows the greatest number of rounds only is matched without regard to the rest. A round that
consumes nothing is the last one.
-/
namespace FragmentRouting.Pattern

/-- A place in the text: how many characters lie before it, the text from it on, and the texts kept
in the slots so far. -/
structure Place where
  position : Nat
  rest : Text
  captures : List (Option Text)
  deriving DecidableEq, Repr

def Place.ofText (slots : Nat) (t : Text) : Place := ⟨0, t, List.replicate slots none⟩

/-- What a pattern needs to know: how to go on from a place. -/
abbrev Continuation := Place → Option Place

/-- Rounds of a repeat that prefers more of them, with up to `room` characters left: one more
round, and more after it if it consumed something, or else on with the rest. -/
def moreRounds (body : Continuation → Continuation) (k : Continuation) : Nat → Continuation
  | 0, s => (body k s).or (k s)
  | room + 1, s =>
    (body (fun s' => if s.position < s'.position then moreRounds body k room s' else k s') s).or
      (k s)

/-- Rounds of a repeat that prefers to go on with the rest. -/
def fewerRounds (body : Continuation → Continuation) (k : Continuation) : Nat → Continuation
  | 0, s => (k s).or (body k s)
  | room + 1, s =>
    (k s).or
      (body (fun s' => if s.position < s'.position then fewerRounds body k room s' else k s') s)

def boundedRounds (moreFirst : Bool) (body : Continuation → Continuation) (k : Continuation) :
    Nat → Continuation
  | 0, s => k s
  | bound + 1, s =>
    let onward : Continuation := fun s' =>
      if s.position < s'.position then boundedRounds moreFirst body k bound s' else k s'
    if moreFirst then (body onward s).or (k s) else (k s).or (body onward s)

def allRounds (body : Continuation → Continuation) : Nat → Place → Place
  | 0, s => s
  | bound + 1, s =>
    match body some s with
    | none => s
    | some s' => if s.position < s'.position then allRounds body bound s' else s'

def firstRounds (body : Continuation → Continuation) : Nat → Place → Option Place
  | 0, s => some s
  | count + 1, s => (body some s).bind (firstRounds body count)

def exactRounds (body : Continuation → Continuation) : Nat → Continuation → Continuation
  | 0, k => k
  | count + 1, k => body (exactRounds body count k)

/-- The place reached by matching a pattern at a place and going on with `k`. -/
def run : Pattern → Continuation → Continuation
  | .empty, k, s => k s
  | .one cls, k, s =>
    match s.rest with
    | [] => none
    | c :: rest =>
      if cls.contains c then k { s with position := s.position + 1, rest := rest } else none
  | .start, k, s => if s.position = 0 then k s else none
  | .finish, k, s => if s.rest = [] ∨ s.rest = ['\n'] then k s else none
  | .seq p q, k, s => p.run (q.run k) s
  | .choice p q, k, s => (p.run k s).or (q.run k s)
  | .group slot p, k, s =>
    p.run (fun s' =>
      let covered := s.rest.take (s'.position - s.position)
      k { s' with captures := s'.captures.set slot (some covered) }) s
  | .repeated least bound .most p, k, s =>
    (firstRounds p.run least s).bind fun s' =>
      k (allRounds p.run ((bound.map (· - least)).getD (s'.rest.length + 1)) s')
  | .repeated least none .more p, k, s =>
    exactRounds p.run least (fun s' => moreRounds p.run k s'.rest.length s') s
  | .repeated least none .fewer p, k, s =>
    exactRounds p.run least (fun s' => fewerRounds p.run k s'.rest.length s') s
  | .repeated least (some bound) preference p, k, s =>
    exactRounds p.run least (boundedRounds (preference == .more) p.run k (bound - least)) s

/-- Matches a pattern at the start of a text; the captures if there is a match. -/
def captures? (p : Pattern) (t : Text) : Option (List (Option Text)) :=
  (p.run some (Place.ofText p.slots t)).map Place.captures

end FragmentRouting.Pattern

namespace FragmentRouting

structure Matcher where
  source : Text
  pattern : Pattern
  deriving DecidableEq, Repr

namespace Matcher

def ofSource (source : Text) : Except Fault Matcher :=
  match Pattern.parse source with
  | .ok pattern => .ok ⟨source, pattern⟩
  | .error fault => .error (.patternSyntax fault)

def captures? (m : Matcher) (t : Text) : Option (List (Option Text)) := m.pattern.captures? t

def accepts (m : Matcher) (t : Text) : Bool := (m.captures? t).isSome

end Matcher

end FragmentRouting
