import FragmentRouting.Text.Search
import FragmentRouting.Wire.Percent

namespace FragmentRouting.Wire

abbrev Pair (κ : Type) (α : Type := Char) := κ × Option (List α)

section Alphabet

variable {α : Type} [Alphabet α]

def writePair (encoding : Encoding) (pair : Pair (Value α) α) : Except Fault Text :=
  match pair.2 with
  | none => quoteKey encoding pair.1
  | some value => do
    let key ← quoteKey encoding pair.1
    let value ← quote encoding value
    return key ++ '=' :: value

def writePairs (encoding : Encoding) (pairs : List (Pair (Value α) α)) : Except Fault Text := do
  let parts ← pairs.mapM (writePair encoding)
  return Text.joinWith ['&'] parts

end Alphabet

def readPair (encoding : Encoding) (query part : Text) : Except Fault (Pair Text) := do
  let (key, value) := Text.cut '=' part
  let key ← unquote encoding query key
  match value with
  | none => return (key, none)
  | some value => return (key, some (← unquote encoding query value))

def parts (query : Text) : List Text := (query.splitOn '&').filter fun part => !part.isEmpty

/-- The pairs of a query, which may start with a question mark. -/
def readPairs (encoding : Encoding) (query : Text) : Except Fault (List (Pair Text)) :=
  let query := Text.dropLead '?' query
  (parts query).mapM (readPair encoding query)

end FragmentRouting.Wire
