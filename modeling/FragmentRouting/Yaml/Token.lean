import FragmentRouting.Number.Numeral
import FragmentRouting.Yaml.ScalarText

/-!
The tokens of a YAML document. Indentation opens and closes block collections, and a key of a
mapping is recognised only at the colon behind it, so that its tokens are inserted in front of what
was read. A token behind which such an insertion is still possible is not final; if the document
turns out to be malformed, the tokens that are final by then come before the flaw.
-/
namespace FragmentRouting.Yaml

inductive Directive where
  | version (major : Int)
  | handle (handle address : Text)
  | other
  deriving DecidableEq, Repr

inductive Token where
  | documentStart
  | documentEnd
  | directive (directive : Directive)
  | blockSequenceStart
  | blockMappingStart
  | blockEnd
  | flowSequenceStart
  | flowSequenceEnd
  | flowMappingStart
  | flowMappingEnd
  | blockEntry
  | flowEntry
  | key
  | value
  | anchor (name : Text)
  | «alias» (name : Text)
  | tag (handle : Option Text) (suffix : Text)
  | scalar (content : CodePoints) (plain : Bool)
  deriving DecidableEq, Repr

structure Tokens where
  final : List Token
  flaw : Option Flaw

structure PossibleKey where
  number : Nat
  /-- Whether a key has to stand there, because the block structure leaves nothing else. -/
  required : Bool
  place : Place
  depth : Nat

/-- The lexer between tokens. The tokens read stand with the last one first. -/
structure Lexer where
  place : Place
  recent : List Token := []
  count : Nat := 0
  depth : Nat := 0
  indent : Int := -1
  indents : List Int := []
  keyAllowed : Bool := true
  keys : List PossibleKey := []

namespace Lexer

def push (token : Token) (l : Lexer) : Lexer :=
  { l with recent := token :: l.recent, count := l.count + 1 }

def pushOver (token : Token) (width : Nat) (l : Lexer) : Lexer :=
  { l.push token with place := l.place.advanceBy width }

def insertAt (number : Nat) (token : Token) (l : Lexer) : Lexer :=
  let behind := l.count - number
  { l with
    recent := l.recent.take behind ++ token :: l.recent.drop behind
    count := l.count + 1 }

/-- Closes the blocks that are indented further than `column`. -/
def unwind (column : Int) (l : Lexer) : Lexer :=
  if l.depth = 0 then go l.indents l else l
where
  go : List Int → Lexer → Lexer
    | [], l => l
    | outer :: rest, l =>
      if column < l.indent then go rest { l.push .blockEnd with indent := outer, indents := rest }
      else l

/-- Opens a block at a column, if it is indented further than the one around it. -/
def openBlock? (column : Nat) (l : Lexer) : Option Lexer :=
  if l.indent < column then some { l with indent := column, indents := l.indent :: l.indents }
  else none

def currentKey? (l : Lexer) : Option PossibleKey := l.keys.find? (·.depth == l.depth)

def withoutKey (l : Lexer) : Lexer := { l with keys := l.keys.filter (·.depth != l.depth) }

def dropKey (l : Lexer) : Except Flaw Lexer :=
  if (l.currentKey?.map (·.required)).getD false then .error .malformed else .ok l.withoutKey

def noteKey (l : Lexer) : Except Flaw Lexer :=
  if l.keyAllowed then do
    let required := l.depth == 0 && l.indent == l.place.column
    let key : PossibleKey := ⟨l.count, required, l.place, l.depth⟩
    let l ← l.dropKey
    return { l with keys := key :: l.keys }
  else .ok l

/-- Whether a key that started there can no longer end here: keys stay on one line and within 1024
characters. -/
def isStale (l : Lexer) (key : PossibleKey) : Bool :=
  key.place.line != l.place.line || 1024 < key.place.left - l.place.left

def dropStale (l : Lexer) : Except Flaw Lexer :=
  if l.keys.any fun key => l.isStale key && key.required then .error .malformed
  else .ok { l with keys := l.keys.filter fun key => !l.isStale key }

/-- The tokens that no key can be inserted in front of any more. -/
def finalTokens (l : Lexer) : List Token :=
  let pending := l.keys.filter fun key => !l.isStale key
  let final := pending.foldl (fun n key => min n key.number) l.count
  (l.recent.drop (l.count - final)).reverse

/-- Passes over blanks, comments and line breaks. After a line break in a block a key may start. -/
def skip : Nat → Lexer → Lexer
  | 0, l => l
  | fuel + 1, l =>
    let p := l.place.dropWhile (· == ' ')
    let p := if p.head? == some '#' then p.dropWhile (!isBreak ·) else p
    match p.lineBreak? with
    | some (_, next) =>
      skip fuel { l with place := next, keyAllowed := l.keyAllowed || l.depth == 0 }
    | none => { l with place := p }

def versionNumber (p : Place) : Except Flaw (Int × Place) :=
  let (digits, after) := p.takeWhile Char.isDigit
  match Numeral.readInteger 10 (CodePoints.ofText digits) with
  | .ok n => .ok (n, after)
  | .error .noInteger => .error .malformed
  | .error (.overlong digits) => .error (.overlong digits)

def versionAt (p : Place) : Except Flaw (Directive × Place) := do
  let (major, p) ← versionNumber (p.dropWhile (· == ' '))
  if p.head? ≠ some '.' then throw .malformed
  let (_, p) ← versionNumber p.advance
  return (.version major, p)

def handleAt (p : Place) : Except Flaw (Directive × Place) := do
  let (handle, p) ← orMalformed (tagHandle? (p.dropWhile (· == ' ')))
  if p.head? ≠ some ' ' then throw .malformed
  let (address, p) ← orMalformed (tagAddress? (p.dropWhile (· == ' ')))
  return (.handle handle address, p)

def readDirective (l : Lexer) : Except Flaw Lexer := do
  let l ← (l.unwind (-1)).dropKey
  let (name, p) := l.place.advance.takeWhile isNameChar
  if name.isEmpty || !atFieldEnd p.rest then throw .malformed
  let (directive, p) ←
    if name = "YAML".toList then versionAt p
    else if name = "TAG".toList then handleAt p
    else pure (.other, p.dropWhile (!isBreak ·))
  if !atFieldEnd p.rest then throw .malformed
  let p ← orMalformed p.restOfLine?
  return { l.push (.directive directive) with place := p, keyAllowed := false }

def readMarker (token : Token) (l : Lexer) : Except Flaw Lexer := do
  let l ← (l.unwind (-1)).dropKey
  return { l.pushOver token 3 with keyAllowed := false }

def openFlow (token : Token) (l : Lexer) : Except Flaw Lexer := do
  let l ← l.noteKey
  return { l.pushOver token 1 with depth := l.depth + 1, keyAllowed := true }

def closeFlow (token : Token) (l : Lexer) : Except Flaw Lexer := do
  if l.depth = 0 then throw .malformed
  let l ← l.dropKey
  return { l.pushOver token 1 with depth := l.depth - 1, keyAllowed := false }

def readFlowEntry (l : Lexer) : Except Flaw Lexer := do
  let l ← l.dropKey
  return { l.pushOver .flowEntry 1 with keyAllowed := true }

def startBlock (token : Token) (l : Lexer) : Except Flaw Lexer :=
  if l.depth = 0 then
    if l.keyAllowed then
      .ok (((l.openBlock? l.place.column).map (push token)).getD l)
    else .error .malformed
  else .ok l

def readBlockEntry (l : Lexer) : Except Flaw Lexer := do
  let l ← (← l.startBlock .blockSequenceStart).dropKey
  return { l.pushOver .blockEntry 1 with keyAllowed := true }

def readKey (l : Lexer) : Except Flaw Lexer := do
  let l ← (← l.startBlock .blockMappingStart).dropKey
  return { l.pushOver .key 1 with keyAllowed := l.depth == 0 }

/-- Reads the colon in front of a value, and marks the key before it. -/
def readValue (l : Lexer) : Except Flaw Lexer :=
  match l.currentKey? with
  | some key =>
    let l := l.withoutKey.insertAt key.number .key
    let l :=
      if l.depth = 0 then
        ((l.openBlock? key.place.column).map (insertAt key.number .blockMappingStart)).getD l
      else l
    .ok { l.pushOver .value 1 with keyAllowed := false }
  | none => do
    let l ← l.startBlock .blockMappingStart
    let l ← { l with keyAllowed := l.depth == 0 }.dropKey
    return l.pushOver .value 1

def readName (token : Text → Token) (l : Lexer) : Except Flaw Lexer := do
  let l ← l.noteKey
  let (name, p) := l.place.advance.takeWhile isNameChar
  let ended := atWordEnd p.rest || "?:,]%@".toList.contains (p.rest.headD ' ') ||
    p.head? == some '\x7d' || p.head? == some '\x60'
  if name.isEmpty || !ended then throw .malformed
  return { l.push (token name) with place := p, keyAllowed := false }

def tagAt? (p : Place) : Option (Token × Place) := do
  let rest := p.advance.rest
  if rest.head? = some '<' then
    let (suffix, after) ← tagAddress? (p.advanceBy 2)
    if after.head? = some '>' then some (.tag none suffix, after.advance) else none
  else if atWordEnd rest then
    some (.tag none ['!'], p.advance)
  else
    let word := rest.takeWhile fun c => !(c == ' ' || isBreak c)
    let (handle, start) ← if word.contains '!' then tagHandle? p else some (['!'], p.advance)
    let (suffix, after) ← tagAddress? start
    some (.tag (some handle) suffix, after)

def readTag (l : Lexer) : Except Flaw Lexer := do
  let l ← l.noteKey
  let (token, p) ← orMalformed (tagAt? l.place)
  if !atFieldEnd p.rest then throw .malformed
  return { l.push token with place := p, keyAllowed := false }

def readBlockScalar (fold : Bool) (l : Lexer) : Except Flaw Lexer := do
  let l ← { l with keyAllowed := true }.dropKey
  let (text, p) ← orMalformed (readBlock fold l.indent l.place)
  return { l.push (.scalar (CodePoints.ofText text) false) with place := p }

def readQuotedScalar (double : Bool) (l : Lexer) : Except Flaw Lexer := do
  let l ← l.noteKey
  let (content, p) ← readQuoted double l.place
  return { l.push (.scalar content false) with place := p, keyAllowed := false }

def readPlainScalar (l : Lexer) : Except Flaw Lexer := do
  let l ← l.noteKey
  let flow := l.depth != 0
  let (text, ended, p) := readPlain flow (l.indent + 1) (l.place.left + 1) [] l.place
  return { l.push (.scalar (CodePoints.ofText text) true) with place := p, keyAllowed := ended }

def startsPlain (flow : Bool) (c : Char) (rest : Text) : Bool :=
  !(isBlankChar c || isBreak c || "-?:,[]#&*!|>%@'\"".toList.contains c ||
      c == '\x7b' || c == '\x7d' || c == '\x60') ||
    (!atWordEnd rest && (c == '-' || (!flow && (c == '?' || c == ':'))))

def readToken (c : Char) (rest : Text) (l : Lexer) : Except Flaw Lexer :=
  let flow := l.depth != 0
  let first := l.place.column == 0
  if c = '%' && first then l.readDirective
  else if first && atMarker '-' l.place.rest then l.readMarker .documentStart
  else if first && atMarker '.' l.place.rest then l.readMarker .documentEnd
  else if c = '[' then l.openFlow .flowSequenceStart
  else if c = '\x7b' then l.openFlow .flowMappingStart
  else if c = ']' then l.closeFlow .flowSequenceEnd
  else if c = '\x7d' then l.closeFlow .flowMappingEnd
  else if c = ',' then l.readFlowEntry
  else if c = '-' && atWordEnd rest then l.readBlockEntry
  else if c = '?' && (flow || atWordEnd rest) then l.readKey
  else if c = ':' && (flow || atWordEnd rest) then l.readValue
  else if c = '*' then l.readName .alias
  else if c = '&' then l.readName .anchor
  else if c = '!' then l.readTag
  else if c = '|' && !flow then l.readBlockScalar false
  else if c = '>' && !flow then l.readBlockScalar true
  else if c = '\'' then l.readQuotedScalar false
  else if c = '"' then l.readQuotedScalar true
  else if startsPlain flow c rest then l.readPlainScalar
  else .error .malformed

/-- Reads the next tokens; says whether the document ended. -/
def step (l : Lexer) : Except Flaw (Lexer × Bool) := do
  let l ← (l.skip (l.place.left + 1)).dropStale
  let l := l.unwind l.place.column
  match l.place.rest with
  | [] => return (← (l.unwind (-1)).dropKey, true)
  | c :: rest => return (← l.readToken c rest, false)

/-- Reads tokens to the end of the document or to its first flaw. -/
def run : Nat → Lexer → Tokens
  | 0, l => ⟨l.finalTokens, some .malformed⟩
  | fuel + 1, l =>
    match l.step with
    | .ok (l, true) => ⟨l.recent.reverse, none⟩
    | .ok (l, false) => run fuel l
    | .error flaw => ⟨l.finalTokens, some flaw⟩

end Lexer

def isAdmitted (c : Char) : Bool :=
  let n := c.toNat
  n == 0x9 || n == 0xA || n == 0xD || (0x20 ≤ n && n ≤ 0x7E) || n == 0x85 ||
    (0xA0 ≤ n && n ≤ 0xD7FF) || (0xE000 ≤ n && n ≤ 0xFFFD) || 0x10000 ≤ n

def lex (document : Text) : Tokens :=
  if document.all isAdmitted then
    let start := Place.start document
    let start := if start.head? == some '\ufeff' then start.advance else start
    Lexer.run (document.length + 2) { place := start }
  else ⟨[], some .malformed⟩

end FragmentRouting.Yaml
