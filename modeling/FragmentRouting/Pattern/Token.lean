import FragmentRouting.Pattern.Basic
import FragmentRouting.Pattern.Flaw

namespace FragmentRouting.Pattern

inductive Token where
  | one (cls : CharClass)
  | start
  | finish
  /-- Opens a group, one with a slot if `captures`. -/
  | opening (captures : Bool)
  | closing
  | bar
  | quantifier (least : Nat) (bound : Option Nat) (preference : Preference)
  | flawed (flaw : Flaw)
  deriving DecidableEq, Repr

def escapedItem? (c : Char) : Option ClassItem :=
  let single (d : Char) : Option ClassItem := some (.range d d)
  match c with
  | 'd' => some (.digit false)
  | 'D' => some (.digit true)
  | 's' => some (.blank false)
  | 'S' => some (.blank true)
  | 'w' => some (.word false)
  | 'W' => some (.word true)
  | 'a' => single '\x07'
  | 'f' => single '\x0c'
  | 'n' => single '\n'
  | 'r' => single '\r'
  | 't' => single '\t'
  | 'v' => single '\x0b'
  | _ => if c.isAlphanum then none else single c

/-- One member of a class, as written: the item, or the flaw that its escape has. -/
inductive Member where
  | item (item : ClassItem) (shown : Text)
  | flawed (flaw : Flaw)

/-- Reads a member of a class, and says how many characters it takes. -/
def member? : Text → Option (Member × Nat)
  | [] => none
  | ['\\'] => some (.flawed .danglingEscape, 1)
  | '\\' :: c :: _ =>
    match escapedItem? c with
    | some item => some (.item item ['\\', c], 2)
    | none => if c = 'b' then some (.item (.range '\x08' '\x08') ['\\', c], 2)
      else some (.flawed (.badEscape ['\\', c]), 2)
  | c :: _ => some (.item (.range c c) [c], 1)

def rangeOf (low high : ClassItem) (shown : Text) : Except Flaw ClassItem :=
  match low, high with
  | .range a b, .range c d =>
    if a = b ∧ c = d ∧ a ≤ c then .ok (.range a c) else .error (.badRange shown)
  | _, _ => .error (.badRange shown)

/-- Reads the members of a class after `taken` characters, up to the bracket that closes it. A
bracket in the first place is a member. -/
def readMembers (negated : Bool) :
    Nat → List ClassItem → Nat → Text → Except (Flaw × Nat) (CharClass × Nat)
  | 0, _, taken, _ => .error (.unclosedClass, taken)
  | fuel + 1, items, taken, t =>
    match t, items with
    | ']' :: _, _ :: _ => .ok (⟨items.reverse, negated⟩, taken + 1)
    | _, _ =>
      match member? t with
      | none => .error (.unclosedClass, 0)
      | some (.flawed flaw, _) => .error (flaw, taken)
      | some (.item low shown, width) =>
        match t.drop width with
        | ['-'] => .error (.unclosedClass, 0)
        | '-' :: ']' :: _ =>
          .ok (⟨(ClassItem.range '-' '-' :: low :: items).reverse, negated⟩, taken + width + 2)
        | '-' :: rest =>
          match member? rest with
          | none => .error (.unclosedClass, 0)
          | some (.flawed flaw, _) => .error (flaw, taken + width + 1)
          | some (.item high shownHigh, widthHigh) =>
            match rangeOf low high (shown ++ '-' :: shownHigh) with
            | .ok item =>
              readMembers negated fuel (item :: items) (taken + width + 1 + widthHigh)
                (rest.drop widthHigh)
            | .error flaw => .error (flaw, taken)
        | rest => readMembers negated fuel (low :: items) (taken + width) rest

/-- Reads a class after its opening bracket: the token, how far behind the bracket a flaw stands,
and how many characters the class takes. -/
def readClass (t : Text) : Token × Nat × Nat :=
  let (negated, body, taken) := match t with
    | '^' :: rest => (true, rest, 1)
    | _ => (false, t, 0)
  match readMembers negated (body.length + 1) [] taken body with
  | .ok (cls, taken) => (.one cls, 0, taken)
  | .error (.unclosedClass, _) => (.flawed .unclosedClass, 0, t.length)
  | .error (flaw, offset) => (.flawed flaw, offset + 1, t.length)

/-- The rest of a quantifier: after a question mark it prefers fewer rounds, after a plus sign it
allows the greatest number only. -/
def quantifierOf (least : Nat) (bound : Option Nat) (taken : Nat) : Text → Token × Nat
  | '?' :: _ => (.quantifier least bound .fewer, taken + 1)
  | '+' :: _ => (.quantifier least bound .most, taken + 1)
  | _ => (.quantifier least bound .more, taken)

/-- The bounds in braces after the opening brace, with the number of characters they take. -/
def readBounds? (t : Text) : Option (Nat × Option Nat × Nat) :=
  let low := t.takeWhile Char.isDigit
  let least := (Text.toNat? 10 low).getD 0
  match t.drop low.length with
  | '\x7d' :: _ =>
    if low.isEmpty then none else some (least, some least, low.length + 1)
  | ',' :: rest =>
    let high := rest.takeWhile Char.isDigit
    match rest.drop high.length with
    | '\x7d' :: _ => some (least, Text.toNat? 10 high, low.length + high.length + 2)
    | _ => none
  | _ => none

/-- The token that starts with `c` before the rest `t`, how far behind `c` its position lies, and
how many characters of `t` it takes. -/
def tokenAt (c : Char) (t : Text) : Token × Nat × Nat :=
  match c with
  | '.' => (.one .exceptLineFeed, 0, 0)
  | '^' => (.start, 0, 0)
  | '$' => (.finish, 0, 0)
  | '|' => (.bar, 0, 0)
  | ')' => (.closing, 0, 0)
  | '(' =>
    match t with
    | '?' :: ':' :: _ => (.opening false, 0, 2)
    | ['?'] => (.flawed .unfinishedExtension, 2, 1)
    | '?' :: d :: _ => (.flawed (.unknownExtension [d]), 1, 2)
    | _ => (.opening true, 0, 0)
  | '*' => let (token, taken) := quantifierOf 0 none 0 t; (token, 0, taken)
  | '+' => let (token, taken) := quantifierOf 1 none 0 t; (token, 0, taken)
  | '?' => let (token, taken) := quantifierOf 0 (some 1) 0 t; (token, 0, taken)
  | '\x7b' =>
    match readBounds? t with
    | none => (.one (.single c), 0, 0)
    | some (least, some most, taken) =>
      if most < least then (.flawed .repeatBounds, 1, taken)
      else let (token, taken) := quantifierOf least (some most) taken (t.drop taken)
        (token, 0, taken)
    | some (least, none, taken) =>
      let (token, taken) := quantifierOf least none taken (t.drop taken)
      (token, 0, taken)
  | '[' => readClass t
  | '\\' =>
    match t with
    | [] => (.flawed .danglingEscape, 0, 0)
    | d :: _ =>
      match escapedItem? d with
      | some item => (.one ⟨[item], false⟩, 0, 1)
      | none => (.flawed (.badEscape ['\\', d]), 0, 1)
  | _ => (.one (.single c), 0, 0)

/-- The tokens with their positions, from `position` on, after passing over `covered`
characters. -/
def tokensFrom (position : Nat) : Nat → Text → List (Token × Nat)
  | _, [] => []
  | covered + 1, _ :: t => tokensFrom (position + 1) covered t
  | 0, c :: t =>
    let (token, offset, taken) := tokenAt c t
    (token, position + offset) :: tokensFrom (position + 1) taken t

def tokens (source : Text) : List (Token × Nat) := tokensFrom 0 0 source

end FragmentRouting.Pattern
