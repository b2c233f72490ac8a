import FragmentRouting.Codec.Layouts

namespace FragmentRouting.Codec

/-- Layouts by name, in the order of registration. -/
abbrev Registry (α : Type := Char) := OrderedMap Text (Layout α)

namespace Registry

variable {α : Type}

def builtIn [Alphabet α] : Registry α :=
  [Layout.standard, Layout.delimited, Layout.bracket, Layout.json].map fun layout =>
    (layout.name, layout)

def register (name : Text) (layout : Layout α) (registry : Registry α) : Registry α :=
  OrderedMap.insert name layout registry

def names (registry : Registry α) : List Text := (registry.map (·.1)).mergeSort Text.le

/-- The layout under a name. A name that cannot be a key fails by its kind, any other that is not
registered with the names that are. -/
def find (registry : Registry α) (name : Value) : Except Fault (Layout α) :=
  match name.unhashable? with
  | some kind => .error (.unhashable kind)
  | none =>
    let found := match name with
      | .text t => OrderedMap.find? t registry
      | _ => none
    match found with
    | some layout => .ok layout
    | none => do throw (.unknownCodec (← name.shown) registry.names)

def codec (registry : Registry α) (name : Value) (settings : Settings := {})
    (onError : Option Sink := none) : Except Fault (Codec α) :=
  return create (← registry.find name) settings onError

end Registry

def defaultName : Value := .text (Layout.bracket : Layout).name

def ofDefault : Codec := create Layout.bracket

end FragmentRouting.Codec
