import FragmentRouting.Fragment.Build
import FragmentRouting.Template.Compiler

/-!
Routers: tables of routes in the order in which they are tried, by descending priority and among
equal priorities by time of addition. A plain router matches fragments with its host's patterns; one
with queries compiles them so that a trailing query is decoded into the last parameter.
-/
namespace FragmentRouting

abbrev Handler := List Value → Except Raised Value

structure Route where
  template : Text
  handler : Option Handler := none
  name : Text := []
  priority : Int := 0
  metadata : Params := []
  matcher : Matcher

structure QuerySupport where
  codec : Codec
  compiler : Template.Compiler

structure Router where
  stripSlash : Bool := true
  host : Template.Host := Template.standardHost
  queries : Option QuerySupport := none
  routes : List Route := []

structure RouteMatch where
  route : Route
  params : List Value

namespace Router

def plain (stripSlash : Bool) : Router := { stripSlash }

def withQueries (stripSlash : Bool) (codec : Codec) (host : Template.Host) : Router :=
  { stripSlash, host, queries := some ⟨codec, { host }⟩ }

/-- The result of an operation, the router after it, and what it told. -/
abbrev Outcome (α : Type) := Except Fault α × Router × List Notice

/-- Puts a route behind all routes of the same or a higher priority. -/
def place (route : Route) (routes : List Route) : List Route :=
  routes.takeWhile (route.priority ≤ ·.priority) ++
    route :: routes.dropWhile (route.priority ≤ ·.priority)

/-- Compiles a template with the router's compiler. A plain router has none and asks its host. -/
def compile (router : Router) (template : Text) : Outcome Template.Compiled :=
  match router.queries with
  | none =>
    ((router.host template).map fun matcher => ⟨template, matcher, Template.tokens template⟩,
      router, [])
  | some support =>
    let (result, compiler, notices) := support.compiler.compile template
    (result.map (·.compiled), { router with queries := some { support with compiler } }, notices)

def matcherOf (router : Router) (template : Text) : Outcome Matcher :=
  let (result, router, notices) := router.compile template
  (result.map (·.matcher), router, notices)

/-- Adds a route, given all but its matcher. If its template does not compile the table stays as it
was. -/
def add (router : Router) (template : Text) (route : Matcher → Route) : Outcome Unit :=
  match router.matcherOf template with
  | (.error fault, router, notices) => (.error fault, router, notices)
  | (.ok matcher, router, notices) =>
    (.ok (), { router with routes := place (route matcher) router.routes }, notices)

/-- Removes the first route with a name, and says whether there was one. -/
def remove (router : Router) (name : Text) : Bool × Router :=
  (router.routes.any (·.name == name),
    { router with routes := router.routes.eraseP (·.name == name) })

def extract (router : Router) (matcher : Matcher) (fragment : Text) :
    Except Raised (Option (List Value)) × List Notice :=
  match router.queries with
  | none => (.ok ((matcher.captures? fragment).map (·.map Fragment.parameter)), [])
  | some support => Fragment.extract support.codec matcher fragment

/-- The first route that matches, with its parameters. An exception of the sink ends the search. -/
def firstMatch (router : Router) (fragment : Text) :
    List Route → Except Raised (Option RouteMatch) × List Notice
  | [] => (.ok none, [])
  | route :: rest =>
    match router.extract route.matcher fragment with
    | (.ok none, _) => firstMatch router fragment rest
    | (.ok (some params), notices) => (.ok (some ⟨route, params⟩), notices)
    | (.error raised, notices) => (.error raised, notices)

def find (router : Router) (fragment : Text) : Except Raised (Option RouteMatch) × List Notice :=
  router.firstMatch (Fragment.normalize router.stripSlash fragment) router.routes

def dispatch (router : Router) (fragment : Text) : Except Raised Value × List Notice :=
  match router.find fragment with
  | (.error raised, notices) => (.error raised, notices)
  | (.ok none, notices) =>
    (.ok .null,
      notices ++ [.log .debug ("No route matches fragment ".toList ++ fragment.quoted)])
  | (.ok (some found), notices) =>
    match found.route.handler with
    | none => (.ok .null, notices)
    | some handler => (handler found.params, notices)

end Router

end FragmentRouting
