import FragmentRouting.Number.Binary64
import FragmentRouting.Value.Time

namespace FragmentRouting

abbrev OrderedMap (κ β : Type) := List (κ × β)

namespace OrderedMap

variable {κ β : Type} [BEq κ]

def find? (key : κ) : OrderedMap κ β → Option β
  | [] => none
  | (k, v) :: rest => if k == key then some v else find? key rest

/-- Sets a key: in place if it is there, at the end if not. -/
def insert (key : κ) (value : β) : OrderedMap κ β → OrderedMap κ β
  | [] => [(key, value)]
  | (k, v) :: rest => if k == key then (k, value) :: rest else (k, v) :: insert key value rest

def erase (key : κ) : OrderedMap κ β → OrderedMap κ β
  | [] => []
  | (k, v) :: rest => if k == key then rest else (k, v) :: erase key rest

def update (m : OrderedMap κ β) (entries : List (κ × β)) : OrderedMap κ β :=
  entries.foldl (fun m entry => insert entry.1 entry.2 m) m

def ofEntries (entries : List (κ × β)) : OrderedMap κ β := update [] entries

end OrderedMap

/-- A value, with texts over an alphabet. The entries of a map stand in insertion order and their
keys are values themselves; so do the members of a set. -/
inductive Value (α : Type := Char) where
  | null
  | bool (b : Bool)
  | int (n : Int)
  | float (x : Binary64)
  | text (t : List α)
  | bytes (b : List UInt8)
  | date (d : Date)
  | moment (m : Moment)
  | list (items : List (Value α))
  | tuple (items : List (Value α))
  | set (members : List (Value α))
  | map (entries : List (Value α × Value α))
  deriving Repr, Inhabited

namespace Value

inductive Kind where
  | null
  | bool
  | int
  | float
  | text
  | bytes
  | date
  | moment
  | list
  | tuple
  | set
  | map
  deriving DecidableEq, Repr

variable {α : Type}

def kind : Value α → Kind
  | .null => .null
  | .bool _ => .bool
  | .int _ => .int
  | .float _ => .float
  | .text _ => .text
  | .bytes _ => .bytes
  | .date _ => .date
  | .moment _ => .moment
  | .list _ => .list
  | .tuple _ => .tuple
  | .set _ => .set
  | .map _ => .map

def Kind.name : Kind → Text
  | .null => "NoneType".toList
  | .bool => "bool".toList
  | .int => "int".toList
  | .float => "float".toList
  | .text => "str".toList
  | .bytes => "bytes".toList
  | .date => "datetime.date".toList
  | .moment => "datetime.datetime".toList
  | .list => "list".toList
  | .tuple => "tuple".toList
  | .set => "set".toList
  | .map => "dict".toList

/-- Whether a value counts as set: not null, false, zero or empty. -/
def truthy : Value α → Bool
  | .null => false
  | .bool b => b
  | .int n => n != 0
  | .float x => !x.equalsInt 0
  | .text t => !t.isEmpty
  | .bytes b => !b.isEmpty
  | .date _ => true
  | .moment _ => true
  | .list items => !items.isEmpty
  | .tuple items => !items.isEmpty
  | .set members => !members.isEmpty
  | .map entries => !entries.isEmpty

/-- The items of a list or a tuple. Values with items are multi-valued parameters. -/
def items? : Value α → Option (List (Value α))
  | .list items => some items
  | .tuple items => some items
  | _ => none

def integer? : Value α → Option Int
  | .bool b => some (if b then 1 else 0)
  | .int n => some n
  | _ => none

mutual

/-- Equality of map keys. Numbers are compared by value across their kinds, and booleans count as
the integers 0 and 1. -/
def sameKey [BEq α] : Value α → Value α → Bool
  | .null, .null => true
  | .text s, .text t => s == t
  | .bytes s, .bytes t => s == t
  | .date d, .date d' => d == d'
  | .moment m, .moment m' => m == m'
  | .tuple xs, .tuple ys => sameKeys xs ys
  | .float x, .float y => x.equals y
  | .float x, y => match y.integer? with
    | some n => x.equalsInt n
    | none => false
  | x, .float y => match x.integer? with
    | some n => y.equalsInt n
    | none => false
  | x, y => match x.integer?, y.integer? with
    | some m, some n => m == n
    | _, _ => false

def sameKeys [BEq α] : List (Value α) → List (Value α) → Bool
  | [], [] => true
  | x :: xs, y :: ys => sameKey x y && sameKeys xs ys
  | _, _ => false

end

instance [BEq α] : BEq (Value α) := ⟨sameKey⟩

mutual

/-- The kind that keeps a value from being a map key: lists, sets and maps cannot be keys, nor can
tuples that hold one. -/
def unhashable? : Value α → Option Kind
  | .list _ => some .list
  | .set _ => some .set
  | .map _ => some .map
  | .tuple items => unhashableAmong? items
  | _ => none

def unhashableAmong? : List (Value α) → Option Kind
  | [] => none
  | x :: rest => match unhashable? x with
    | some kind => some kind
    | none => unhashableAmong? rest

end

/-- Whether a value is a map all of whose keys are texts. Such a map can be sent as a query. -/
def isQueryMap : Value α → Bool
  | .map entries => entries.all fun (k, _) => k.kind == .text
  | _ => false

end Value

abbrev Params := OrderedMap Text Value

def Params.toValue (params : Params) : Value := .map (params.map fun (k, v) => (.text k, v))

end FragmentRouting
