import FragmentRouting.Json.Reader
import FragmentRouting.Settings.Basic
import FragmentRouting.Text.LowerCase
import FragmentRouting.Yaml.Reading

namespace FragmentRouting.Settings

abbrev Environment := OrderedMap Text Text

def usualPrefix : Text := "ROADQUERY_".toList

/-- The value that a variable's text stands for: a truth value if it spells one, in any case. -/
def variableValue (t : Text) : Value :=
  let word := Text.lower t
  if word = "true".toList then .bool true
  else if word = "false".toList then .bool false
  else .text t

/-- The entry that a variable makes, if its name has the prefix: the rest of the name in lower
case, and its value. -/
def settingOf? (lead : Text) (entry : Text × Text) : Option (Value × Value) :=
  (lead.isPrefixOf? entry.1).map fun name => (.text (Text.lower name), variableValue entry.2)

def environmentMap (lead : Text) (environment : Environment) : List (Value × Value) :=
  OrderedMap.ofEntries (environment.filterMap (settingOf? lead))

def ofEnvironment (lead : Text) (environment : Environment) : Settings :=
  ofMap (environmentMap lead environment)

/-- The readers of documents: how deep JSON may be nested, and the values of YAML documents. -/
structure Readers where
  nesting : Nat
  yaml : Text → Except Fault Value

/-- Readers that admit so many lists and maps, or nodes of a YAML document, inside each other. -/
def Readers.ofLimits (nesting nodes : Nat) : Readers where
  nesting
  yaml document := (Yaml.read nodes document).mapError .yaml

variable (readers : Readers)

def normalizeLines : Text → Text
  | '\r' :: '\n' :: rest => '\n' :: normalizeLines rest
  | '\r' :: rest => '\n' :: normalizeLines rest
  | c :: rest => c :: normalizeLines rest
  | [] => []

def readJson (document : Text) : Except Fault Value :=
  (Json.read readers.nesting document).mapError fun
    | .flaw flaw left => .jsonSyntax flaw document (document.length - left)
    | .overlong digits => .overlongNumeral digits
    | .tooDeep container => .jsonNesting container

def ofJson (document : Text) : Except Fault Settings := do
  ofValue (← readJson readers (normalizeLines document))

/-- The settings of a YAML document. One that holds nothing, or only a value that counts as unset,
gives the defaults. -/
def ofYaml (document : Text) : Except Fault Settings := do
  let v ← readers.yaml (normalizeLines document)
  ofValue (if v.truthy then v else .map [])

inductive Format where
  | json
  | yaml
  deriving DecidableEq, Repr

def Format.ofName? (name : Text) : Option Format :=
  if ".json".toList.isSuffixOf name then some .json
  else if ".yaml".toList.isSuffixOf name || ".yml".toList.isSuffixOf name then some .yaml
  else none

structure File where
  name : Text
  content : Option Text

def File.contentOrFail (file : File) : Except Fault Text :=
  match file.content with
  | some content => .ok content
  | none => .error (.noSuchFile file.name)

/-- The settings of a file. One that is missing or of an unknown format gives the defaults, the
latter with a warning. -/
def ofFile (file : File) : Except Fault Settings × List Notice :=
  match file.content with
  | none => (.ok {}, [])
  | some document =>
    match Format.ofName? file.name with
    | some .json => (ofJson readers document, [])
    | some .yaml => (ofYaml readers document, [])
    | none => (.ok {}, [.log .warning ("Unknown config format: ".toList ++ file.name)])

def load (file : Option File) (lead : Text) (environment : Environment) :
    Except Fault Settings × List Notice :=
  let (base, notices) : Except Fault Settings × List Notice := match file with
    | none => (.ok {}, [])
    | some file => ofFile readers file
  (base >>= fun settings => settings.merge (.map (environmentMap lead environment)), notices)

end FragmentRouting.Settings
