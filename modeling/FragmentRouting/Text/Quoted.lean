import FragmentRouting.Text.CodePoints
import FragmentRouting.Text.Property

namespace FragmentRouting.Text

def quoteFor (t : Text) : Char :=
  if t.contains '\'' && !t.contains '"' then '"' else '\''

/-- An escape of a code point by its hexadecimal value, as short as its size allows. -/
def escapeCodePoint (n : Nat) : Text :=
  if n < 0x100 then '\\' :: 'x' :: ofHex 2 n
  else if n < 0x10000 then '\\' :: 'u' :: ofHex 4 n
  else '\\' :: 'U' :: ofHex 8 n

def quotedChar (quote c : Char) : Text :=
  if c = quote ∨ c = '\\' then ['\\', c]
  else if c = '\t' then ['\\', 't']
  else if c = '\n' then ['\\', 'n']
  else if c = '\r' then ['\\', 'r']
  else if isPrintable c then [c]
  else escapeCodePoint c.toNat

def quoted (t : Text) : Text :=
  let quote := quoteFor t
  quote :: (t.flatMap (quotedChar quote) ++ [quote])

/-- One code point inside quotes. Half a surrogate pair stands as an escape. -/
def quotedCode (quote : Char) (n : Nat) : Text :=
  if CodePoints.isSurrogate n then escapeCodePoint n else quotedChar quote (Char.ofNat n)

def quotedCodes (codes : CodePoints) : Text :=
  let quote := quoteFor (codes.map CodePoints.toChar)
  quote :: (codes.flatMap (quotedCode quote) ++ [quote])

def quotedByte (quote : Char) (b : UInt8) : Text :=
  let c := Char.ofNat b.toNat
  if 0x7f ≤ b.toNat then escapeCodePoint b.toNat else quotedChar quote c

def quotedBytes (bytes : List UInt8) : Text :=
  let quote := quoteFor (bytes.map fun b => Char.ofNat b.toNat)
  'b' :: quote :: (bytes.flatMap (quotedByte quote) ++ [quote])

/-- Line and column of a position, both counted from one. Only line feeds end a line. -/
def lineColumn (t : Text) (position : Nat) : Nat × Nat :=
  let before := t.take position
  (before.count '\n' + 1, (before.reverse.takeWhile (· ≠ '\n')).length + 1)

end FragmentRouting.Text
