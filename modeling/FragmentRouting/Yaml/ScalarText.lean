import FragmentRouting.Wire.Percent
import FragmentRouting.Yaml.Basic

namespace FragmentRouting.Yaml

def escapeChar? : Char → Option Char
  | '0' => some '\x00'
  | 'a' => some '\x07'
  | 'b' => some '\x08'
  | 't' => some '\t'
  | '\t' => some '\t'
  | 'n' => some '\n'
  | 'v' => some '\x0b'
  | 'f' => some '\x0c'
  | 'r' => some '\r'
  | 'e' => some '\x1b'
  | ' ' => some ' '
  | '"' => some '"'
  | '\\' => some '\\'
  | '/' => some '/'
  | 'N' => some '\x85'
  | '_' => some '\xa0'
  | 'L' => some '\u2028'
  | 'P' => some '\u2029'
  | _ => none

def escapeWidth? : Char → Option Nat
  | 'x' => some 2
  | 'u' => some 4
  | 'U' => some 8
  | _ => none

def quotedBreaks : Nat → Place → Except Flaw (Text × Place)
  | 0, _ => .error .malformed
  | fuel + 1, p =>
    if p.atDocumentMarker then .error .malformed
    else
      let p := p.dropWhile isBlankChar
      match p.lineBreak? with
      | some (c, next) => (quotedBreaks fuel next).map fun (more, after) => (c :: more, after)
      | none => .ok ([], p)

/-- One line break folds into a blank; further ones are kept. -/
def folded (first : Char) (more : Text) : Text :=
  if first ≠ '\n' then first :: more else if more.isEmpty then [' '] else more

def quotedBlanks (p : Place) : Except Flaw (Text × Place) :=
  let (blanks, after) := p.takeWhile isBlankChar
  if after.rest.isEmpty then .error .malformed
  else match after.lineBreak? with
    | some (c, next) => do
      let (more, after) ← quotedBreaks (next.left + 1) next
      return (folded c more, after)
    | none => .ok (blanks, after)

def escapedCode (digits : Text) : Except Flaw Nat := do
  let n ← orMalformed (Text.toNat? 16 digits)
  if n < 0x110000 then return n
  else if n < 0x80000000 then throw .badEscape
  else throw .hugeEscape

/-- What an escape in a double-quoted scalar stands for. An escaped line break stands for
nothing. -/
def escapeCodes (p : Place) : Except Flaw (CodePoints × Place) := do
  let c ← orMalformed p.head?
  match escapeChar? c, escapeWidth? c with
  | some d, _ => return ([d.toNat], p.advance)
  | none, some width =>
    let digits := p.advance.rest.take width
    if digits.length < width then throw .malformed
    let n ← escapedCode digits
    return ([n], p.advanceBy (width + 1))
  | none, none =>
    let (_, next) ← orMalformed p.lineBreak?
    let (breaks, after) ← quotedBreaks (next.left + 1) next
    return (CodePoints.ofText breaks, after)

def quotedContent (double : Bool) : Nat → Place → Except Flaw (CodePoints × Place)
  | 0, _ => .error .malformed
  | fuel + 1, p =>
    let goOn (read : CodePoints) (p : Place) : Except Flaw (CodePoints × Place) :=
      (quotedContent double fuel p).map fun (more, after) => (read ++ more, after)
    match p.rest with
    | [] => .error .malformed
    | '\'' :: '\'' :: _ =>
      goOn ['\''.toNat] (if double then p.advance else p.advanceBy 2)
    | c :: _ =>
      if c = (if double then '"' else '\'') then .ok ([], p.advance)
      else if double ∧ c = '\\' then do
        let (read, after) ← escapeCodes p.advance
        goOn read after
      else if isBlankChar c || isBreak c then do
        let (read, after) ← quotedBlanks p
        goOn (CodePoints.ofText read) after
      else goOn [c.toNat] p.advance

def readQuoted (double : Bool) (p : Place) : Except Flaw (CodePoints × Place) :=
  quotedContent double (p.left + 1) p.advance

/-- Whether a plain scalar's run of characters ends here. In a flow collection its punctuation ends
it too. -/
def plainEnds (flow : Bool) : Text → Bool
  | [] => true
  | c :: rest =>
    isBlankChar c || isBreak c ||
      (c == ':' && (atWordEnd rest ||
        (flow && [',', '[', ']', '\x7b', '\x7d'].contains (rest.headD ' ')))) ||
      (flow && [',', '?', '[', ']', '\x7b', '\x7d'].contains c)

def plainRun (flow : Bool) : Text → Text
  | [] => []
  | c :: rest => if plainEnds flow (c :: rest) then [] else c :: plainRun flow rest

/-- Blanks and breaks at the start of the lines after a plain scalar's line, until a document
marker; says whether it stopped at one. -/
def plainBreaks : Nat → Place → Text × Bool × Place
  | 0, p => ([], false, p)
  | fuel + 1, p =>
    if p.head? == some ' ' then plainBreaks fuel p.advance
    else match p.lineBreak? with
      | some (c, next) =>
        if next.atDocumentMarker then ([c], true, next)
        else
          let (more, stopped, after) := plainBreaks fuel next
          (c :: more, stopped, after)
      | none => ([], false, p)

/-- What stands between two runs of a plain scalar, if it can go on; also says whether a line was
ended. -/
def plainBlanks (p : Place) : Text × Bool × Place :=
  let (blanks, after) := p.takeWhile (· == ' ')
  match after.lineBreak? with
  | some (c, next) =>
    if next.atDocumentMarker then ([], true, next)
    else
      let (more, stopped, after) := plainBreaks (next.left + 1) next
      (if stopped then [] else folded c more, true, after)
  | none => (blanks, false, after)

/-- Reads a plain scalar that may go on over lines indented by at least `indent`; also says whether
it ended behind a line break. -/
def readPlain (flow : Bool) (indent : Int) : Nat → Text → Place → Text × Bool × Place
  | 0, _, p => ([], false, p)
  | fuel + 1, blanks, p =>
    if p.head? == some '#' then ([], false, p)
    else
      match plainRun flow p.rest with
      | [] => ([], false, p)
      | run =>
        let (between, ended, after) := plainBlanks (p.advanceBy run.length)
        if between.isEmpty || after.head? == some '#' ||
            (!flow && decide ((after.column : Int) < indent)) then
          (blanks ++ run, ended, after)
        else
          let (more, endedLater, last) := readPlain flow indent fuel between after
          (blanks ++ run ++ more, if more.isEmpty then ended else endedLater, last)

/-- What happens to the line breaks at the end of a block scalar. -/
inductive Chomping where
  | strip
  | clip
  | keep
  deriving DecidableEq, Repr

def chomping? : Char → Option Chomping
  | '+' => some .keep
  | '-' => some .strip
  | _ => none

def increment? (c : Char) : Option Nat :=
  if '1' ≤ c ∧ c ≤ '9' then some (c.toNat - '0'.toNat) else none

/-- The indicators of a block scalar, in either order. -/
def blockIndicators (t : Text) : Chomping × Option Nat × Nat :=
  match t with
  | c :: rest =>
    match chomping? c, increment? c with
    | some chomping, _ =>
      match rest.head?.bind increment? with
      | some n => (chomping, some n, 2)
      | none => (chomping, none, 1)
    | none, some n =>
      match rest.head?.bind chomping? with
      | some chomping => (chomping, some n, 2)
      | none => (.clip, some n, 1)
    | none, none => (.clip, none, 0)
  | [] => (.clip, none, 0)

/-- The breaks of the blank lines here, and the largest column reached by blanks. -/
def leadingBreaks : Nat → Nat → Place → Text × Nat × Place
  | 0, widest, p => ([], widest, p)
  | fuel + 1, widest, p =>
    if p.head? == some ' ' then leadingBreaks fuel (max widest p.advance.column) p.advance
    else match p.lineBreak? with
      | some (c, next) =>
        let (more, widest, after) := leadingBreaks fuel widest next
        (c :: more, widest, after)
      | none => ([], widest, p)

def skipIndent (indent : Nat) : Nat → Place → Place
  | 0, p => p
  | fuel + 1, p =>
    if p.column < indent ∧ p.head? = some ' ' then skipIndent indent fuel p.advance else p

/-- The breaks of the blank lines here, none of them indented further than `indent`. -/
def blockBreaks (indent : Nat) : Nat → Place → Text × Place
  | 0, p => ([], p)
  | fuel + 1, p =>
    let p := skipIndent indent indent p
    match p.lineBreak? with
    | some (c, next) =>
      let (more, after) := blockBreaks indent fuel next
      (c :: more, after)
    | none => ([], p)

def inBlock (indent : Nat) (p : Place) : Bool := p.column == indent && !p.rest.isEmpty

/-- Whether the line here starts with text rather than with a blank. -/
def startsWithText (p : Place) : Bool := !(p.head?.map isBlankChar).getD false

def blockLines (fold : Bool) (chomping : Chomping) (indent : Nat) :
    Nat → Text → Place → Text × Place
  | 0, _, p => ([], p)
  | fuel + 1, breaks, p =>
    let (line, after) := p.takeWhile (!isBreak ·)
    let (lineBreak, next) := match after.lineBreak? with
      | some (c, next) => ([c], next)
      | none => ([], after)
    let (following, last) := blockBreaks indent (next.left + 1) next
    if inBlock indent last then
      let joint := if fold && lineBreak == ['\n'] && startsWithText p && startsWithText last then
          if following.isEmpty then [' '] else []
        else lineBreak
      let (more, final) := blockLines fold chomping indent fuel following last
      (breaks ++ line ++ joint ++ more, final)
    else
      let ending := match chomping with
        | .strip => []
        | .clip => lineBreak
        | .keep => lineBreak ++ following
      (breaks ++ line ++ ending, last)

/-- Reads a block scalar from its indicator on, below a level indented by `indent`. -/
def readBlock (fold : Bool) (indent : Int) (p : Place) : Option (Text × Place) := do
  let p := p.advance
  let (chomping, increment, width) := blockIndicators p.rest
  let p := p.advanceBy width
  if !atFieldEnd p.rest then none
  let p ← p.restOfLine?
  let least := (max (indent + 1) 1).toNat
  let (breaks, column, p) := match increment with
    | none =>
      let (breaks, widest, p) := leadingBreaks (p.left + 1) 0 p
      (breaks, max least widest, p)
    | some n =>
      let column := least + n - 1
      let (breaks, p) := blockBreaks column (p.left + 1) p
      (breaks, column, p)
  if inBlock column p then
    return blockLines fold chomping column (p.left + 1) breaks p
  else
    return (if chomping = .keep then breaks else [], p)

def isTagChar (c : Char) : Bool :=
  c.isAlphanum || "-;/?:@&=+$,_.!~*'()[]%".toList.contains c

def isNameChar (c : Char) : Bool := c.isAlphanum || c == '-' || c == '_'

/-- The address of a tag, with its escapes decoded, and the place after it. -/
def tagAddress? (p : Place) : Option (Text × Place) := do
  let (run, after) := p.takeWhile isTagChar
  if run.isEmpty ∨ (Wire.badEscape? run).isSome then none
  let address ← (Utf8.decode (Wire.unquoteBytes run)).toOption
  return (address, after)

/-- The handle in front of a tag's name, of one or two exclamation marks, and the place after it. -/
def tagHandle? (p : Place) : Option (Text × Place) :=
  if p.head? ≠ some '!' then none
  else if p.advance.head? = some ' ' then some (['!'], p.advance)
  else
    let (name, after) := p.advance.takeWhile isNameChar
    if after.head? = some '!' then some ('!' :: (name ++ ['!']), after.advance) else none

end FragmentRouting.Yaml
