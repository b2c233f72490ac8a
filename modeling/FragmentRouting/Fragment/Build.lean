import FragmentRouting.Codec.Layouts
import FragmentRouting.Fragment.Basic

namespace FragmentRouting.Fragment

open Template (Piece)

def pathText (codec : Codec) (value : Value) : Except Fault Text :=
  match value.items? with
  | some items => Codec.joinItems codec.settings items
  | none => value.format

/-- Fills tokens by name; each takes its entry out of the map. An entry that is missing counts as
null. -/
def fillByName (codec : Codec) : List Piece → List (Value × Value) →
    Except Fault (Text × List (Value × Value))
  | [], entries => .ok ([], entries)
  | .literal c :: rest, entries => do
    let (path, left) ← fillByName codec rest entries
    return (c :: path, left)
  | .token t :: rest, entries => do
    let key := Value.text t.name
    let text ← pathText codec ((OrderedMap.find? key entries).getD .null)
    let (path, left) ← fillByName codec rest (OrderedMap.erase key entries)
    return (text ++ path, left)

/-- Fills tokens from left to right. Values that are missing count as null, further ones are
ignored. -/
def fillInOrder (codec : Codec) : List Piece → List Value → Except Fault Text
  | [], _ => .ok []
  | .literal c :: rest, values => do
    let path ← fillInOrder codec rest values
    return c :: path
  | .token _ :: rest, values => do
    let text ← pathText codec (values.head?.getD .null)
    let path ← fillInOrder codec rest values.tail
    return text ++ path

/-- A path with a map as its query. An empty map adds nothing. -/
def withQuery (codec : Codec) (path : Text) (entries : List (Value × Value)) : Except Fault Text :=
  if entries.isEmpty then .ok path
  else return appendQuery path (← codec.serialize entries)

def fromParams (codec : Codec) (template : Text) (entries : List (Value × Value)) :
    Except Fault Text := do
  let (path, left) ← fillByName codec (Template.pieces template) entries
  withQuery codec path left

def fromValues (codec : Codec) (template : Text) (values : List Value)
    (query : List (Value × Value)) : Except Fault Text := do
  let path ← fillInOrder codec (Template.pieces template) values
  withQuery codec path query

/-- The fragment of a template and some arguments: a single map fills it by name, otherwise the
arguments fill it in order and a last one that is a map is the query. Only maps with text keys
count. -/
def ofArguments (codec : Codec) (template : Text) (arguments : List Value) : Except Fault Text :=
  match arguments.getLast? with
  | some (.map entries) =>
    if (Value.map entries).isQueryMap then
      if arguments.length = 1 then fromParams codec template entries
      else fromValues codec template arguments.dropLast entries
    else fromValues codec template arguments []
  | _ => fromValues codec template arguments []

end FragmentRouting.Fragment
