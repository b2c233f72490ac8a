import FragmentRouting.Diagnostics
import FragmentRouting.Template.Host
import FragmentRouting.Text.Search

/-!
Narrowing the host's pattern of a template so that no token runs into a query, and a group for the
query follows at the end. The source is checked first: it must be anchored on both sides and hold
one shape for each token.
-/
namespace FragmentRouting.Template

structure Shapes where
  named : Text := namedShape
  splat : Text := splatShape
  deriving DecidableEq, Repr

def Shapes.of (shapes : Shapes) : TokenKind → Text
  | .named => shapes.named
  | .splat => shapes.splat

def namedQueryShape : Text := ['(', '[', '^', '/', '?', ']', '*', ')']

def splatQueryShape : Text := ['(', '[', '^', '?', ']', '*', ')']

def queryShape : TokenKind → Text
  | .named => namedQueryShape
  | .splat => splatQueryShape

def queryGroup : Text := ['(', '\\', '?', '.', '*', ')', '?']

def shapeFlaw? (shapes : Shapes) (source : Text) (declared : List Token) (kind : TokenKind) :
    Option HostFlaw :=
  let expected := countKind kind declared
  let found := Text.occurrences (shapes.of kind) source
  if found = expected then none else some (.shapeCount kind (shapes.of kind) expected found)

def hostFlaw? (shapes : Shapes) (source : Text) (declared : List Token) : Option HostFlaw :=
  if source.head? ≠ some '^' then some .openStart
  else if source.getLast? ≠ some '$' then some .openEnd
  else
    (shapeFlaw? shapes source declared .named).or (shapeFlaw? shapes source declared .splat)

/-- The narrowed source: named shapes first, then splat shapes, then the query before the final
anchor. -/
def narrow (shapes : Shapes) (source : Text) : Text :=
  let tokensNarrowed := Text.replaceAll shapes.splat splatQueryShape
    (Text.replaceAll shapes.named namedQueryShape source)
  tokensNarrowed.dropLast ++ queryGroup ++ ['$']

structure Compiled where
  template : Text
  matcher : Matcher
  tokens : List Token
  deriving DecidableEq, Repr

namespace Compiled

def accepts (compiled : Compiled) (path : Text) : Bool := compiled.matcher.accepts path

def count (compiled : Compiled) (kind : TokenKind) : Nat := countKind kind compiled.tokens

end Compiled

/-- Compiles a template from the host's matcher for it. The narrowed source goes to the log before
it is read. -/
def compileFrom (shapes : Shapes) (template : Text) (host : Matcher) :
    Except Fault Compiled × List Notice :=
  let declared := tokens template
  match hostFlaw? shapes host.source declared with
  | some flaw => (.error (.unfitHost flaw template host.source), [])
  | none =>
    let source := narrow shapes host.source
    let entry := Notice.log .debug ("Compiled route ".toList ++ template.quoted ++ " -> ".toList ++
      source.quoted)
    ((Matcher.ofSource source).map fun matcher => ⟨template, matcher, declared⟩, [entry])

def compileFresh (host : Host) (shapes : Shapes) (template : Text) :
    Except Fault Compiled × List Notice :=
  match host template with
  | .error fault => (.error fault, [])
  | .ok matcher => compileFrom shapes template matcher

end FragmentRouting.Template
