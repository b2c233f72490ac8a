import FragmentRouting.Codec.Basic
import FragmentRouting.Json.Reader
import FragmentRouting.Json.Writer

namespace FragmentRouting.Codec

def orEmpty (value : Option Text) : Text := value.getD []

/-! ### Repeated keys -/

section Alphabet

variable {α : Type} [Alphabet α]

/-- One pair for each item of a list, or one for the value. -/
def encodeRepeated (key value : Value α) : Except Fault (List (Wire.Pair (Value α) α)) :=
  match value.items? with
  | some items => return (← Value.formatAll items).map fun item => (key, some item)
  | none => return [(key, some (← value.format))]

/-- A further value under a key: the first is a text, more make a list. -/
def addRepeated (value : Text) : Option Value → Value
  | none => .text value
  | some (.list items) => .list (items ++ [.text value])
  | some first => .list [first, .text value]

def takeRepeated (params : Params) (pair : Wire.Pair Text) : Params :=
  OrderedMap.insert pair.1 (addRepeated (orEmpty pair.2) (OrderedMap.find? pair.1 params)) params

/-- Lists are repeated keys: `tag=a&tag=b`. A key seen once reads as a text, one seen more often as
a list. -/
def Layout.standard : Layout α where
  name := "standard".toList
  encode _ := encodeRepeated
  decode _ pairs := .ok (pairs.foldl takeRepeated [])

/-! ### Joined lists -/

/-- The items joined with a delimiter, which has to be a text. An empty list needs no joining, so
bytes will do for it. -/
def joinItems (settings : Settings) (items : List (Value α)) : Except Fault (List α) :=
  match settings.arrayDelimiter with
  | .text delimiter => do
    let parts ← Value.formatAll items
    return Text.joinWith (Alphabet.ofText delimiter) parts
  | .bytes _ => do
    let parts ← Value.formatAll items
    match parts, settings.encoding.setting with
    | [], .null => return []
    | [], _ => throw .unquotableKey
    | _, _ => throw (.unjoinable .bytes)
  | v => .error (.unjoinable v.kind)

def encodeJoined (settings : Settings) (key value : Value α) :
    Except Fault (List (Wire.Pair (Value α) α)) :=
  match value.items? with
  | some items => return [(key, some (← joinItems settings items))]
  | none => return [(key, some (← value.format))]

/-- A value split at a delimiter, if the delimiter is set and stands in it. -/
def splitJoined (delimiter : Value) (value : Text) : Except Fault Value :=
  match delimiter with
  | .text d =>
    if !d.isEmpty && Text.occursIn d value then
      .ok (.list ((Text.splitAtAll d value).map .text))
    else .ok (.text value)
  | v => if v.truthy then .error (.unsearchable v.kind) else .ok (.text value)

def takeJoined (settings : Settings) (params : Params) (pair : Wire.Pair Text) :
    Except Fault Params := do
  let value ← splitJoined settings.arrayDelimiter (orEmpty pair.2)
  return OrderedMap.insert pair.1 value params

/-- Lists are joined with the delimiter: `tag=a|b`. A value that holds the delimiter reads as a
list; of repeated keys the last counts. -/
def Layout.delimited : Layout α where
  name := "delimited".toList
  encode := encodeJoined
  decode settings pairs := pairs.foldlM (takeJoined settings) []

/-! ### Bracket suffixes -/

def listSuffix : Text := ['[', ']']

def suffixed : Value α → Except Fault (Value α)
  | .text key => .ok (.text (key ++ Alphabet.ofText listSuffix))
  | key => .error (.unsuffixableKey key.kind)

/-- One pair with a suffixed key for each item of a list, a suffixed key alone for the empty list,
or one pair for the value. -/
def encodeBracket (key value : Value α) : Except Fault (List (Wire.Pair (Value α) α)) :=
  match value.items? with
  | some [] => return [(← suffixed key, none)]
  | some (item :: rest) => do
    let key ← suffixed key
    let parts ← Value.formatAll (item :: rest)
    return parts.map fun part => (key, some part)
  | none => return [(key, some (← value.format))]

/-- The key of a list without its suffix, for a key that has it. -/
def unsuffixed? (key : Text) : Option Text :=
  if listSuffix.isSuffixOf key then some (key.take (key.length - listSuffix.length)) else none

/-- The items of the list under a key; anything else counts as an empty list. -/
def listItems : Option Value → List Value
  | some (.list items) => items
  | _ => []

def takeBracket (params : Params) (pair : Wire.Pair Text) : Params :=
  match unsuffixed? pair.1 with
  | some key =>
    let items := listItems (OrderedMap.find? key params)
    let more := match pair.2 with
      | some value => [.text value]
      | none => []
    OrderedMap.insert key (.list (items ++ more)) params
  | none => OrderedMap.insert pair.1 (.text (orEmpty pair.2)) params

/-- Lists are keys with a suffix: `tag[]=a&tag[]=b`. Suffixed keys always read as lists, others as
texts, of which the last counts. -/
def Layout.bracket : Layout α where
  name := "bracket".toList
  encode _ := encodeBracket
  decode _ pairs := .ok (pairs.foldl takeBracket [])

/-! ### JSON values -/

def readJson (nesting : Nat) (key : Text) (value : Option Text) : Except Fault Value :=
  (Json.read nesting (orEmpty value)).mapError fun
    | .flaw flaw _ => .malformedQuery (.notJson key flaw) []
    | .overlong digits => .overlongNumeral digits
    | .tooDeep container => .jsonNesting container

def takeJson (nesting : Nat) (params : Params) (pair : Wire.Pair Text) : Except Fault Params := do
  let value ← readJson nesting pair.1 pair.2
  return OrderedMap.insert pair.1 value params

/-- Every value is written as JSON, so that its type is kept. -/
def Layout.json : Layout α where
  name := "json".toList
  encode settings key value :=
    return [(key, some (Alphabet.ofText (← Json.write settings.nesting value)))]
  decode settings pairs := pairs.foldlM (takeJson settings.nesting) []

end Alphabet

end FragmentRouting.Codec
