import FragmentRouting.Fault
import FragmentRouting.Number.Shortest

namespace FragmentRouting.Value

variable {α : Type} [Alphabet α]

def integerText (n : Int) : Except Fault Text :=
  if Nat.pow 10 digitLimit ≤ n.natAbs then .error .overlongInteger else .ok (Text.ofInt n)

def listed (parts : List Text) : Text := Text.joinWith ", ".toList parts

mutual

def shown : Value α → Except Fault Text
  | .null => .ok "None".toList
  | .bool true => .ok "True".toList
  | .bool false => .ok "False".toList
  | .int n => integerText n
  | .float x => .ok x.toText
  | .text t => .ok (Text.quotedCodes (t.map Alphabet.code))
  | .bytes b => .ok (Text.quotedBytes b)
  | .date d => .ok d.shown
  | .moment m => .ok m.shown
  | .list items => do
    let parts ← shownItems items
    return '[' :: (listed parts ++ [']'])
  | .tuple items => do
    let parts ← shownItems items
    match parts with
    | [part] => return '(' :: (part ++ [',', ')'])
    | _ => return '(' :: (listed parts ++ [')'])
  | .set members => do
    let parts ← shownItems members
    return if parts.isEmpty then "set()".toList else '\x7b' :: (listed parts ++ ['\x7d'])
  | .map entries => do
    let parts ← shownEntries entries
    return '\x7b' :: (listed parts ++ ['\x7d'])

def shownItems : List (Value α) → Except Fault (List Text)
  | [] => .ok []
  | item :: rest => do
    let first ← shown item
    let others ← shownItems rest
    return first :: others

def shownEntries : List (Value α × Value α) → Except Fault (List Text)
  | [] => .ok []
  | (key, value) :: rest => do
    let first ← shown key
    let second ← shown value
    let others ← shownEntries rest
    return (first ++ ':' :: ' ' :: second) :: others

end

/-- A value as text: a text as it is, dates and moments in their usual form, all else as diagnostics
show it. -/
def plain : Value α → Except Fault (List α)
  | .text t => .ok t
  | .date d => .ok (Alphabet.ofText d.toText)
  | .moment m => .ok (Alphabet.ofText m.toText)
  | v => return Alphabet.ofText (← shown v)

def format : Value α → Except Fault (List α)
  | .null => .ok []
  | .bool true => .ok (Alphabet.ofText "true".toList)
  | .bool false => .ok (Alphabet.ofText "false".toList)
  | v => plain v

def formatAll (items : List (Value α)) : Except Fault (List (List α)) := items.mapM format

end FragmentRouting.Value
