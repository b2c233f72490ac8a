import FragmentRouting.Yaml.Graph.Basic
import FragmentRouting.Yaml.Token

/-!
The graph of a YAML document, read from its tokens. An anchor names its node from the start of the
node on, so that aliases inside a collection may stand for the collection. A document holds one
node. A flaw behind the final tokens shows only when a token there is asked for.
-/
namespace FragmentRouting.Yaml

/-- What the parser knows: how many nodes may stand inside each other, the tokens to come and the
flaw behind them, the graph so far, the nodes of the anchors met, the addresses of the tag handles,
and how many nodes stand around the next. -/
structure Parser where
  nesting : Nat
  tokens : List Token
  flaw : Option Flaw
  graph : Graph := #[]
  anchors : List (Text × NodeId) := []
  handles : List (Text × Text) := [(['!'], ['!']), (['!', '!'], standardAddress)]
  depth : Nat := 0

abbrev Parsing := StateT Parser (Except Flaw)

namespace Parser

def peek : Parsing (Option Token) := do
  let s ← get
  match s.tokens, s.flaw with
  | token :: _, _ => return some token
  | [], none => return none
  | [], some flaw => throw flaw

def skip : Parsing Unit := modify fun s => { s with tokens := s.tokens.tail }

def sees (expected : List Token) : Parsing Bool :=
  return ((← peek).map expected.contains).getD false

def passes (expected : Token) : Parsing Bool := do
  if ← sees [expected] then
    skip
    return true
  else return false

def expect (expected : Token) : Parsing Unit := do
  if !(← passes expected) then throw .malformed

def create (anchor : Option Text) (node : Node) : Parsing NodeId := do
  let id := (← get).graph.size
  modify fun s => { s with graph := s.graph.push node }
  if let some name := anchor then
    modify fun s => { s with anchors := (name, id) :: s.anchors }
  return id

def fill (id : NodeId) (node : Node) : Parsing Unit :=
  modify fun s => { s with graph := s.graph.replace id node }

def missing : Parsing NodeId := create none (.scalar .null [])

def anchored (name : Text) : Parsing NodeId := do
  match (← get).anchors.find? (·.1 == name) with
  | some (_, id) => return id
  | none => throw .malformed

def nested {α : Type} (read : Parsing α) : Parsing α := do
  let parser ← get
  if parser.depth = parser.nesting then throw .tooDeep
  modify fun s => { s with depth := s.depth + 1 }
  let a ← read
  modify fun s => { s with depth := s.depth - 1 }
  return a

def readAnchor : Parsing (Option Text) := do
  match ← peek with
  | some (.anchor name) =>
    skip
    return some name
  | _ => return none

def readTag : Parsing (Option (Option Text × Text)) := do
  match ← peek with
  | some (.tag handle suffix) =>
    skip
    return some (handle, suffix)
  | _ => return none

/-- The anchor and the tag in front of a node, in either order. -/
def readProperties : Parsing (Option Text × Option (Option Text × Text)) := do
  match ← readAnchor with
  | some name => return (some name, ← readTag)
  | none =>
    match ← readTag with
    | some tag => return (← readAnchor, some tag)
    | none => return (none, none)

def addressOf : Option (Option Text × Text) → Parsing (Option Text)
  | none => return none
  | some (none, suffix) => return some suffix
  | some (some handle, suffix) => do
    match (← get).handles.find? (·.1 == handle) with
    | some (_, start) => return some (start ++ suffix)
    | none => throw .malformed

def collectionTag (usual : Tag) : Option Text → Tag
  | none => usual
  | some address => if address = ['!'] then usual else .ofAddress address

/-- The tag of a scalar. Without one, a plain scalar shows its tag and any other is a text. -/
def scalarTag (address : Option Text) (plain : Bool) (content : CodePoints) : Tag :=
  match address with
  | none => if plain then .ofPlain content.toText else .str
  | some address => if address = ['!'] then .ofPlain content.toText else .ofAddress address

mutual

/-- Reads a node. Block collections are admitted if `block`, sequences without an indentation of
their own if `indentless`. -/
def readNode (block indentless : Bool) : Nat → Parsing NodeId
  | 0 => throw .malformed
  | fuel + 1 => do
    match ← peek with
    | some (.alias name) =>
      skip
      anchored name
    | _ => nested do
      let (anchor, tag) ← readProperties
      let address ← addressOf tag
      let _ ← peek
      if (← get).anchors.any fun (name, _) => anchor == some name then throw .malformed
      readContent block indentless (anchor.isSome || tag.isSome) anchor address fuel

/-- Reads a node behind its anchor and tag. Only a node that is `marked` by one may be left out. -/
def readContent (block indentless marked : Bool) (anchor address : Option Text) :
    Nat → Parsing NodeId
  | 0 => throw .malformed
  | fuel + 1 => do
    let sequence := collectionTag .seq address
    let mapping := collectionTag .map address
    let fillSequence (read : Parsing (List NodeId)) : Parsing NodeId := do
      let id ← create anchor (.sequence sequence [])
      fill id (.sequence sequence (← read))
      return id
    let fillMapping (read : Parsing (List (NodeId × NodeId))) : Parsing NodeId := do
      let id ← create anchor (.mapping mapping [])
      fill id (.mapping mapping (← read))
      return id
    let leftOut : Parsing NodeId := do
      if !marked then throw .malformed
      create anchor (.scalar (scalarTag address true []) [])
    match ← peek with
    | some (.scalar content plain) =>
      skip
      create anchor (.scalar (scalarTag address plain content) content)
    | some .flowSequenceStart =>
      skip
      fillSequence (readFlowItems true fuel)
    | some .flowMappingStart =>
      skip
      fillMapping (readFlowEntries true fuel)
    | some .blockEntry =>
      if indentless then fillSequence (readItems false fuel) else leftOut
    | some .blockSequenceStart =>
      if block then
        skip
        fillSequence (readItems true fuel)
      else leftOut
    | some .blockMappingStart =>
      if block then
        skip
        fillMapping (readEntries fuel)
      else leftOut
    | _ => leftOut

def readUnless (before : List Token) (block indentless : Bool) : Nat → Parsing NodeId
  | 0 => throw .malformed
  | fuel + 1 => do if ← sees before then missing else readNode block indentless fuel

def readBehind (before : List Token) (block indentless : Bool) : Nat → Parsing NodeId
  | 0 => throw .malformed
  | fuel + 1 => do if ← passes .value then readUnless before block indentless fuel else missing

def readItems (indented : Bool) : Nat → Parsing (List NodeId)
  | 0 => throw .malformed
  | fuel + 1 => do
    if ← passes .blockEntry then
      let before : List Token :=
        if indented then [.blockEntry, .blockEnd] else [.blockEntry, .key, .value, .blockEnd]
      let item ← readUnless before true false fuel
      return item :: (← readItems indented fuel)
    else
      if indented then expect .blockEnd
      return []

def readEntries : Nat → Parsing (List (NodeId × NodeId))
  | 0 => throw .malformed
  | fuel + 1 => do
    if ← passes .key then
      let before : List Token := [.key, .value, .blockEnd]
      let key ← readUnless before true true fuel
      let value ← readBehind before true true fuel
      return (key, value) :: (← readEntries fuel)
    else
      expect .blockEnd
      return []

def readFlowItems (first : Bool) : Nat → Parsing (List NodeId)
  | 0 => throw .malformed
  | fuel + 1 => do
    if ← passes .flowSequenceEnd then return []
    if !first then expect .flowEntry
    if ← passes .key then
      let id ← nested do
        let id ← create none (.mapping .map [])
        let key ← readUnless [.value, .flowEntry, .flowSequenceEnd] false false fuel
        let value ← readBehind [.flowEntry, .flowSequenceEnd] false false fuel
        fill id (.mapping .map [(key, value)])
        return id
      return id :: (← readFlowItems false fuel)
    else if ← passes .flowSequenceEnd then return []
    else
      let item ← readNode false false fuel
      return item :: (← readFlowItems false fuel)

/-- Reads the entries of a flow mapping. An entry may be a key alone. -/
def readFlowEntries (first : Bool) : Nat → Parsing (List (NodeId × NodeId))
  | 0 => throw .malformed
  | fuel + 1 => do
    if ← passes .flowMappingEnd then return []
    if !first then expect .flowEntry
    if ← passes .key then
      let key ← readUnless [.value, .flowEntry, .flowMappingEnd] false false fuel
      let value ← readBehind [.flowEntry, .flowMappingEnd] false false fuel
      return (key, value) :: (← readFlowEntries false fuel)
    else if ← passes .flowMappingEnd then return []
    else
      let key ← readNode false false fuel
      let value ← missing
      return (key, value) :: (← readFlowEntries false fuel)

end

/-- Reads the directives in front of a document: at most one version, which must be of the first
major number, and one address for each handle. -/
def readDirectives (versioned : Bool) (declared : List Text) : Nat → Parsing Unit
  | 0 => throw .malformed
  | fuel + 1 => do
    match ← peek with
    | some (.directive directive) =>
      skip
      match directive with
      | .version major =>
        if versioned || major != 1 then throw .malformed
        readDirectives true declared fuel
      | .handle handle address =>
        if declared.contains handle then throw .malformed
        modify fun s => { s with handles := (handle, address) :: s.handles }
        readDirectives versioned (handle :: declared) fuel
      | .other => readDirectives versioned declared fuel
    | _ => return ()

def readExplicit (fuel : Nat) : Parsing NodeId := do
  readDirectives false [] fuel
  expect .documentStart
  match ← peek with
  | none => missing
  | some (.directive _) => missing
  | some .documentStart => missing
  | some .documentEnd => missing
  | some _ => readNode true false fuel

/-- Passes over what may stand behind the node of a document. Directives are read, but there must be
no other document. -/
def readEnd : Nat → Parsing Unit
  | 0 => throw .malformed
  | fuel + 1 => do
    if ← passes .documentEnd then readEnd fuel
    else if (← peek).isSome then
      readDirectives false [] fuel
      let _ ← peek
      throw .malformed

def readDocument (fuel : Nat) : Parsing (Option NodeId) := do
  match ← peek with
  | none => return none
  | some (.directive _) => return some (← readExplicit fuel <* readEnd fuel)
  | some .documentStart => return some (← readExplicit fuel <* readEnd fuel)
  | some _ => return some (← readNode true false fuel <* readEnd fuel)

end Parser

/-- The graph of a document and the number of its node, none if it is empty. -/
def parse (nesting : Nat) (document : Text) : Except Flaw (Option NodeId × Graph) := do
  let tokens := lex document
  let start : Parser := { nesting, tokens := tokens.final, flaw := tokens.flaw }
  let (root, s) ← (Parser.readDocument (4 * tokens.final.length + 8)).run start
  return (root, s.graph)

end FragmentRouting.Yaml
