import FragmentRouting.Text.Property

namespace FragmentRouting

inductive ClassItem where
  | range (first last : Char)
  | digit (negated : Bool)
  | blank (negated : Bool)
  | word (negated : Bool)
  deriving DecidableEq, Repr

def ClassItem.contains (c : Char) : ClassItem → Bool
  | .range first last => first ≤ c && c ≤ last
  | .digit negated => Text.isDecimalDigit c != negated
  | .blank negated => Text.isBlank c != negated
  | .word negated => Text.isWord c != negated

/-- A set of characters: one of the items, or none of them. -/
structure CharClass where
  items : List ClassItem
  negated : Bool := false
  deriving DecidableEq, Repr

namespace CharClass

def contains (cls : CharClass) (c : Char) : Bool := cls.items.any (·.contains c) != cls.negated

def single (c : Char) : CharClass := ⟨[.range c c], false⟩

def exceptLineFeed : CharClass := ⟨[.range '\n' '\n'], true⟩

end CharClass

inductive Preference where
  /-- As many rounds as possible, fewer if what follows needs it. -/
  | more
  /-- As few rounds as possible, more if what follows needs it. -/
  | fewer
  /-- As many rounds as possible and no other number. -/
  | most
  deriving DecidableEq, Repr

inductive Pattern where
  | empty
  | one (cls : CharClass)
  | start
  /-- Matches in place at the end of the text, or before a line feed that ends it. -/
  | finish
  | seq (first second : Pattern)
  | choice (first second : Pattern)
  /-- Matches a pattern and keeps the text that it covers in a slot. -/
  | group (slot : Nat) (body : Pattern)
  | repeated (least : Nat) (bound : Option Nat) (preference : Preference) (body : Pattern)
  deriving DecidableEq, Repr

namespace Pattern

def seqAll : List Pattern → Pattern
  | [] => .empty
  | [p] => p
  | p :: rest => .seq p (seqAll rest)

def choiceAll : List Pattern → Pattern
  | [] => .empty
  | [p] => p
  | p :: rest => .choice p (choiceAll rest)

def slots : Pattern → Nat
  | .empty | .one _ | .start | .finish => 0
  | .seq p q | .choice p q => p.slots + q.slots
  | .group _ p => p.slots + 1
  | .repeated _ _ _ p => p.slots

end Pattern

end FragmentRouting
