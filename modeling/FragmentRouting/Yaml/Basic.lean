import FragmentRouting.Text.Quoted
import FragmentRouting.Value.Time

namespace FragmentRouting.Yaml

inductive Flaw where
  /-- The document is not well formed, or not plain data. -/
  | malformed
  | tooDeep
  | notInteger (base : Nat) (numeral : CodePoints)
  | overlong (digits : Nat)
  | notFloat (numeral : CodePoints)
  /-- A place of a number in base sixty is beyond the range of floats. -/
  | floatOverflow
  | emptyNumber
  | notBool (word : CodePoints)
  | badTime (flaw : TimeFlaw)
  | notTimestamp
  /-- A timestamp is given by a mapping. -/
  | compositeTimestamp
  | badEscape
  /-- An escape names a number beyond 32-bit integers. -/
  | hugeEscape
  deriving DecidableEq, Repr

def orMalformed {α : Type} : Option α → Except Flaw α
  | some a => .ok a
  | none => .error .malformed

/-- A place: the text from it on and the length of that, and its line and column. -/
structure Place where
  rest : Text
  left : Nat
  line : Nat := 0
  column : Nat := 0

def isBreak (c : Char) : Bool :=
  c == '\n' || c == '\r' || c == '\x85' || c == '\u2028' || c == '\u2029'

def isBlankChar (c : Char) : Bool := c == ' ' || c == '\t'

def atLineEnd : Text → Bool
  | [] => true
  | c :: _ => isBreak c

def atWordEnd : Text → Bool
  | [] => true
  | c :: _ => isBlankChar c || isBreak c

/-- Whether a tag or a directive's word ends here: as `atWordEnd`, but not at a tab. -/
def atFieldEnd : Text → Bool
  | [] => true
  | c :: _ => c == ' ' || isBreak c

/-- Whether a document marker, three equal characters alone in front, stands here. -/
def atMarker (c : Char) : Text → Bool
  | a :: b :: d :: rest => a == c && b == c && d == c && atWordEnd rest
  | _ => false

namespace Place

def start (document : Text) : Place := { rest := document, left := document.length }

def head? (p : Place) : Option Char := p.rest.head?

/-- The place after the next character. A carriage return before a line feed breaks no line by
itself, and a byte-order mark takes no column. -/
def advance (p : Place) : Place :=
  match p.rest with
  | [] => p
  | c :: rest =>
    let next := { p with rest, left := p.left - 1 }
    if isBreak c && !(c == '\r' && rest.head? == some '\n') then
      { next with line := p.line + 1, column := 0 }
    else if c = '\ufeff' then next
    else { next with column := p.column + 1 }

def advanceBy : Nat → Place → Place
  | 0, p => p
  | n + 1, p => advanceBy n p.advance

def takeWhile (p : Place) (property : Char → Bool) : Text × Place :=
  let run := p.rest.takeWhile property
  (run, p.advanceBy run.length)

def dropWhile (p : Place) (property : Char → Bool) : Place := (p.takeWhile property).2

/-- The line break that stands here, as it counts in a scalar, and the place after it. All breaks
but the two separators count as a line feed. -/
def lineBreak? (p : Place) : Option (Char × Place) :=
  match p.rest with
  | '\r' :: '\n' :: _ => some ('\n', p.advanceBy 2)
  | c :: _ =>
    if isBreak c then some (if c == '\u2028' || c == '\u2029' then c else '\n', p.advance) else none
  | [] => none

def atDocumentMarker (p : Place) : Bool := atMarker '-' p.rest || atMarker '.' p.rest

/-- The place after the blanks and the comment that may end a line; nothing else may stand before
the line's end. -/
def restOfLine? (p : Place) : Option Place :=
  let p := p.dropWhile (· == ' ')
  let p := if p.head? == some '#' then p.dropWhile (!isBreak ·) else p
  if atLineEnd p.rest then
    match p.lineBreak? with
    | some (_, next) => some next
    | none => some p
  else none

end Place

end FragmentRouting.Yaml
