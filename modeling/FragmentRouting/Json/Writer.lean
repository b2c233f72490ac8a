import FragmentRouting.Value.Display

namespace FragmentRouting.Json

def escapeUnit (n : Nat) : Text := '\\' :: 'u' :: Text.ofHex 4 n

def writeChar (c : Char) : Text :=
  if c = '"' ∨ c = '\\' then ['\\', c]
  else if c = '\n' then ['\\', 'n']
  else if c = '\r' then ['\\', 'r']
  else if c = '\t' then ['\\', 't']
  else if c = '\x0c' then ['\\', 'f']
  else if c = '\x08' then ['\\', 'b']
  else if ' ' ≤ c ∧ c ≤ '~' then [c]
  else if c.toNat < 0x10000 then escapeUnit c.toNat
  else
    let n := c.toNat - 0x10000
    escapeUnit (0xD800 + n / 0x400) ++ escapeUnit (0xDC00 + n % 0x400)

section Alphabet

variable {α : Type} [Alphabet α]

def writeLetter (a : α) : Text :=
  match Alphabet.char? a with
  | some c => writeChar c
  | none => escapeUnit (Alphabet.code a)

def writeText (t : List α) : Text := '"' :: (t.flatMap writeLetter ++ ['"'])

def writeFloat : Binary64 → Text
  | .nan => "NaN".toList
  | .infinite false => "Infinity".toList
  | .infinite true => "-Infinity".toList
  | x => x.toText

def writeScalar? : Value α → Option (Except Fault Text)
  | .null => some (.ok "null".toList)
  | .bool true => some (.ok "true".toList)
  | .bool false => some (.ok "false".toList)
  | .int n => some (Value.integerText n)
  | .float x => some (.ok (writeFloat x))
  | _ => none

def writeKey (key : Value α) : Except Fault Text :=
  match key, writeScalar? key with
  | .text t, _ => .ok (writeText t)
  | _, some written => written.map writeText
  | _, none => .error (.notJsonKey key.kind)

def deeper : Nat → Except Fault Nat
  | 0 => .error .overdeepValue
  | nesting + 1 => .ok nesting

mutual

def write (nesting : Nat) : Value α → Except Fault Text
  | .text t => .ok (writeText t)
  | .list items => do
    let parts ← writeItems (← deeper nesting) items
    return '[' :: (Text.joinWith [','] parts ++ [']'])
  | .tuple items => do
    let parts ← writeItems (← deeper nesting) items
    return '[' :: (Text.joinWith [','] parts ++ [']'])
  | .map entries => do
    let parts ← writeEntries (← deeper nesting) entries
    return '\x7b' :: (Text.joinWith [','] parts ++ ['\x7d'])
  | v => (writeScalar? v).getD (.error (.notJsonValue v.kind))

def writeItems (nesting : Nat) : List (Value α) → Except Fault (List Text)
  | [] => .ok []
  | item :: rest => do
    let first ← write nesting item
    let others ← writeItems nesting rest
    return first :: others

def writeEntries (nesting : Nat) : List (Value α × Value α) → Except Fault (List Text)
  | [] => .ok []
  | (key, value) :: rest => do
    let name ← writeKey key
    let written ← write nesting value
    let others ← writeEntries nesting rest
    return (name ++ ':' :: written) :: others

end

end Alphabet

end FragmentRouting.Json
