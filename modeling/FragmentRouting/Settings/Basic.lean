import FragmentRouting.Codec.Registry
import FragmentRouting.Router.Basic

namespace FragmentRouting

/-- The settings of a router. A value from a file may be of any kind. -/
structure Settings where
  codec : Value := Codec.defaultName
  arrayDelimiter : Value := .text ['|']
  encoding : Value := .text "utf-8".toList
  stripLeadingSlash : Value := .bool true
  deriving Repr

namespace Settings

inductive Field where
  | codec
  | arrayDelimiter
  | encoding
  | stripLeadingSlash
  deriving DecidableEq, Repr

namespace Field

def all : List Field := [.codec, .arrayDelimiter, .encoding, .stripLeadingSlash]

def name : Field → Text
  | .codec => "codec".toList
  | .arrayDelimiter => "array_delimiter".toList
  | .encoding => "encoding".toList
  | .stripLeadingSlash => "strip_leading_slash".toList

end Field

def get (settings : Settings) : Field → Value
  | .codec => settings.codec
  | .arrayDelimiter => settings.arrayDelimiter
  | .encoding => settings.encoding
  | .stripLeadingSlash => settings.stripLeadingSlash

/-- The settings with some values for fields. A field without one has its default. -/
def ofArguments (arguments : List (Value × Value)) : Settings :=
  let argument (field : Field) : Value :=
    (OrderedMap.find? (.text field.name) arguments).getD (get {} field)
  { codec := argument .codec
    arrayDelimiter := argument .arrayDelimiter
    encoding := argument .encoding
    stripLeadingSlash := argument .stripLeadingSlash }

def isFieldName (key : Value) : Bool := Field.all.any fun field => Value.text field.name == key

/-- The settings of a map. Entries with other keys than the names of fields have no effect. -/
def ofMap (data : List (Value × Value)) : Settings :=
  ofArguments (OrderedMap.ofEntries (data.filter fun entry => isFieldName entry.1))

def ofValue (value : Value) : Except Fault Settings :=
  match value with
  | .map entries => .ok (ofMap entries)
  | v => .error (.noEntries v.kind)

def toMap (settings : Settings) : List (Value × Value) :=
  OrderedMap.ofEntries (Field.all.map fun field => (.text field.name, settings.get field))

/-- The settings of a codec on a platform, of which `base` tells. -/
def codecSettings (settings : Settings) (base : Codec.Settings := {}) : Codec.Settings :=
  { base with
    arrayDelimiter := settings.arrayDelimiter
    encoding := { base.encoding with setting := settings.encoding } }

def iterate? : Value → Option (List Value)
  | .list items => some items
  | .tuple items => some items
  | .set members => some members
  | .text t => some (t.map fun c => .text [c])
  | .bytes b => some (b.map fun byte => .int byte.toNat)
  | .map entries => some (entries.map (·.1))
  | _ => none

/-- The entry that an item of an update stands for: it must have two items, the first of which can
be a key. -/
def entryOf (index : Nat) (item : Value) : Except Fault (Value × Value) :=
  match iterate? item with
  | none => .error (.notAnEntry index)
  | some [key, value] => match key.unhashable? with
    | some kind => .error (.unhashable kind)
    | none => .ok (key, value)
  | some items => .error (.entryLength index items.length)

/-- The entries of an update: those of a map, or the pairs that anything else goes through. -/
def updateEntries (update : Value) : Except Fault (List (Value × Value)) :=
  match update with
  | .map entries => .ok entries
  | v => match iterate? v with
    | none => .error (.notIterable v.kind)
    | some items => items.zipIdx.mapM fun (item, index) => entryOf index item

def merge (settings : Settings) (update : Value) : Except Fault Settings :=
  return ofMap (OrderedMap.update settings.toMap (← updateEntries update))

def chosenCodec (settings : Settings) (base : Codec.Settings) (registry : Codec.Registry)
    (onError : Option Sink) : Except Fault Codec :=
  registry.codec settings.codec (settings.codecSettings base) onError

end Settings

/-- A router with queries as the settings say. A codec or a choice about slashes given beside them
takes precedence. -/
def Router.ofSettings (settings : Settings) (base : Codec.Settings) (codec : Option Codec)
    (stripSlash : Option Bool) (onError : Option Sink) (host : Template.Host) :
    Except Fault Router := do
  let codec ← match codec with
    | some codec => pure codec
    | none => settings.chosenCodec base Codec.Registry.builtIn onError
  return Router.withQueries (stripSlash.getD settings.stripLeadingSlash.truthy) codec host

end FragmentRouting
