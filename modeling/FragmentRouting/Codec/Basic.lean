import FragmentRouting.Diagnostics
import FragmentRouting.Value.Display
import FragmentRouting.Wire.Pairs

/-!
Codecs lay out parameters as the pairs of a query and read them back. A layout gives both
directions; settings name the delimiter of joined lists and the encoding of the text.
-/
namespace FragmentRouting

namespace Codec

/-- The settings of a codec. They come from configuration and may be of any kind; a wrong one shows
where it is used. How deep JSON may be nested is up to the platform. -/
structure Settings where
  arrayDelimiter : Value := .text ['|']
  encoding : Wire.Encoding := {}
  nesting : Nat := 1000

structure Layout (α : Type := Char) where
  name : Text
  encode : Settings → Value α → Value α → Except Fault (List (Wire.Pair (Value α) α))
  decode : Settings → List (Wire.Pair Text) → Except Fault Params

end Codec

/-- A layout with its settings, and the sink for queries that it cannot read. -/
structure Codec (α : Type := Char) where
  layout : Codec.Layout α
  settings : Codec.Settings := {}
  sink : Sink := .logging

namespace Codec

variable {α : Type}

def create (layout : Layout α) (settings : Settings := {}) (onError : Option Sink := none) :
    Codec α :=
  ⟨layout, settings, Sink.orLogging onError⟩

section Alphabet

variable [Alphabet α]

/-- The pairs of some parameters, in their order. A parameter cannot be a map. -/
def encodePairs (codec : Codec α) :
    List (Value α × Value α) → Except Fault (List (Wire.Pair (Value α) α))
  | [] => .ok []
  | (key, value) :: rest => do
    let first ← match value with
      | .map _ => do throw (.nestedValue (← key.shown))
      | _ => codec.layout.encode codec.settings key value
    let others ← encodePairs codec rest
    return first ++ others

def serialize (codec : Codec α) (params : List (Value α × Value α)) : Except Fault Text := do
  let pairs ← codec.encodePairs params
  Wire.writePairs codec.settings.encoding pairs

end Alphabet

def split (codec : Codec α) (query : Text) : Except Fault (List (Wire.Pair Text)) :=
  Wire.readPairs codec.settings.encoding query

def parse (codec : Codec α) (query : Text) : Except Fault Params := do
  let pairs ← codec.split query
  codec.layout.decode codec.settings pairs

/-- What reading a query gave: its parameters, or the fault that it has. -/
structure Reading where
  params : Params := []
  fault : Option Fault := none
  deriving Repr

def Reading.ok (reading : Reading) : Bool := reading.fault.isNone

def read (codec : Codec α) (query : Text) : Reading :=
  match codec.parse query with
  | .ok params => { params }
  | .error fault => { fault := some fault }

/-- The parameters of a query. A query that cannot be read is reported and has none. -/
def deserialize (codec : Codec α) (query : Text) : Except Raised Params × List Notice :=
  match (codec.read query).fault with
  | none => (.ok (codec.read query).params, [])
  | some fault =>
    let (delivered, told) := codec.sink.deliver query fault
    (delivered.map fun _ => [], told)

end Codec

end FragmentRouting
