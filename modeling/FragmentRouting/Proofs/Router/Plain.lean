import FragmentRouting.Proofs.Router.Table
import FragmentRouting.Proofs.Template.Agreement
import FragmentRouting.Proofs.Template.Inclusion
import FragmentRouting.Proofs.Template.Slots

/-!
Plain routers beside routers with queries. Under the same operations both have the same table but
for the matchers, and on fragments without a question mark the one with queries finds a route
wherever the plain one does, and no later in the table.
-/
namespace FragmentRouting

/-- What was given of a route when it was added. -/
def Route.registration (route : Route) : Registration where
  template := route.template
  handler := route.handler
  name := route.name
  priority := route.priority
  metadata := route.metadata

theorem Fragment.normalize_subset (stripSlash : Bool) (fragment : Text) :
    normalize stripSlash fragment ⊆ fragment := by
  have bare := Text.dropLead_suffix '#' fragment
  rw [normalize]
  refine List.Subset.trans (Text.trimEnd_prefix _).subset ?_
  cases stripSlash with
  | true => exact ((Text.dropLead_suffix '/' _).trans bare).subset
  | false => exact bare.subset

namespace Router

/-- What is registered after one operation, given which templates compile. -/
def registrationStep (compiles : Text → Bool) (entries : List Registration) :
    Command → List Registration
  | .add entry =>
    if compiles entry.template then placeBy Registration.priority entry entries else entries
  | .remove name => entries.eraseP (·.name == name)
  | .compile _ | .forget => entries

theorem map_tableStep (make : Text → Except Fault Matcher) (routes : List Route)
    (command : Command) :
    (tableStep make routes command).map Route.registration =
      registrationStep (fun template => (make template).isOk) (routes.map Route.registration)
        command := by
  cases command with
  | add entry =>
      rw [tableStep, registrationStep]
      cases make entry.template with
      | error fault => rfl
      | ok matcher =>
          rw [if_pos (by rfl)]
          exact map_placeBy Registration.priority Route.registration (entry.route matcher) routes
  | remove name =>
      rw [tableStep, registrationStep, List.eraseP_map]
      rfl
  | compile template => rfl
  | forget => rfl

/-- Whether all routes in a table hold what their templates compile to. -/
def Made (make : Text → Except Fault Matcher) (routes : List Route) : Prop :=
  ∀ route ∈ routes, make route.template = .ok route.matcher

theorem Made.step {make : Text → Except Fault Matcher} {routes : List Route}
    (made : Made make routes) (command : Command) : Made make (tableStep make routes command) := by
  cases command with
  | add entry =>
      rw [tableStep]
      cases compiled : make entry.template with
      | error fault => exact made
      | ok matcher =>
          intro route member
          rcases mem_place member with rfl | member
          · exact compiled
          · exact made route member
  | remove name => exact fun route member => made route (List.eraseP_sublist.subset member)
  | compile template => exact made
  | forget => exact made

theorem Made.run {make : Text → Except Fault Matcher} {routes : List Route}
    (made : Made make routes) (commands : List Command) :
    Made make (commands.foldl (tableStep make) routes) := by
  induction commands generalizing routes with
  | nil => exact made
  | cons command commands ih => exact ih (made.step command)

namespace Kind

variable (kind : Kind) (stripSlash : Bool) (commands : List Command)

theorem made_replay : Made kind.matcher ((kind.start stripSlash).replay commands).routes := by
  rw [routes_replay]
  exact Made.run (List.forall_mem_nil _) commands

theorem registrations_replay :
    ((kind.start stripSlash).replay commands).routes.map Route.registration =
      commands.foldl (registrationStep fun template => (kind.matcher template).isOk) [] := by
  rw [routes_replay]
  exact (List.foldl_hom (List.map Route.registration) fun routes command =>
    (map_tableStep kind.matcher routes command).symm).symm

end Kind

theorem isOk_matcher_withQueries (codec : Codec) (template : Text) :
    ((Kind.withQueries codec Template.standardHost).matcher template).isOk =
      (Kind.plain.matcher template).isOk := by
  have agrees := Template.compileFresh_agrees template
  rw [Kind.matcher, Kind.matcher]
  cases fresh : (Template.compileFresh Template.standardHost {} template).1 with
  | error fault =>
      rw [fresh] at agrees
      cases host : Template.standardHost template with
      | error fault => rfl
      | ok matcher =>
          rw [host] at agrees
          cases agrees
  | ok compiled =>
      rw [fresh] at agrees
      cases host : Template.standardHost template with
      | error fault =>
          rw [host] at agrees
          cases agrees
      | ok matcher => rfl

theorem accepts_withQueries {codec : Codec} {template : Text} {matcher queried : Matcher}
    (hosted : Kind.plain.matcher template = .ok matcher)
    (made : (Kind.withQueries codec Template.standardHost).matcher template = .ok queried)
    {path : Text} (unmarked : '?' ∉ path) (accepts : matcher.accepts path = true) :
    queried.accepts path = true := by
  obtain ⟨compiled, fresh, same⟩ := map_eq_ok_iff.mp made
  rw [← same]
  exact Template.accepts_of_host hosted fresh unmarked accepts

theorem exists_twin {routes routes' : List Route}
    (same : routes.map Route.registration = routes'.map Route.registration) {i : Nat}
    {route : Route} (listed : routes[i]? = some route) :
    ∃ route', routes'[i]? = some route' ∧ route'.template = route.template := by
  have both := congrArg (·[i]?) same
  simp only [List.getElem?_map, listed, Option.map_some] at both
  obtain ⟨route', listed', registration⟩ := Option.map_eq_some_iff.mp both.symm
  exact ⟨route', listed', congrArg Registration.template registration⟩

/-- The position in the table of the route of a fragment. -/
def position? (router : Router) (fragment : Text) : Option Nat :=
  router.routes.findIdx? (·.matcher.accepts (Fragment.normalize router.stripSlash fragment))

theorem find_position {router : Router} {fragment : Text} {found : Option RouteMatch}
    (matched : (router.find fragment).1 = .ok found) :
    found.map RouteMatch.route = (router.position? fragment).bind (router.routes[·]?) := by
  have cases_ := router.firstMatch_cases (Fragment.normalize router.stripSlash fragment)
    router.routes
  rw [position?, ← List.find?_eq_bind_findIdx?_getElem?]
  rcases cases_ with first | ⟨_, _, _, _, raised, _, _, escaped⟩
  · rw [find] at matched
    rw [matched] at first
    exact Except.ok.inj first
  · cases matched.symm.trans escaped

theorem position_of_find {router : Router} {fragment : Text} {found : RouteMatch}
    (matched : (router.find fragment).1 = .ok (some found)) :
    ∃ i, router.position? fragment = some i ∧ router.routes[i]? = some found.route ∧
      found.route.matcher.accepts (Fragment.normalize router.stripSlash fragment) = true := by
  obtain ⟨i, position, listed⟩ := Option.bind_eq_some_iff.mp (find_position matched).symm
  refine ⟨i, position, listed, ?_⟩
  obtain ⟨inside, here, _⟩ := List.findIdx?_eq_some_iff_getElem.mp position
  rw [List.getElem?_eq_getElem inside, Option.some.injEq] at listed
  rw [← listed]
  exact here

theorem exists_position {router : Router} {fragment : Text} {result : Option RouteMatch}
    (matched : (router.find fragment).1 = .ok result) {i : Nat} {route : Route}
    (listed : router.routes[i]? = some route)
    (accepts : route.matcher.accepts (Fragment.normalize router.stripSlash fragment) = true) :
    ∃ found j, result = some found ∧ j ≤ i ∧
      router.position? fragment = some j ∧ router.routes[j]? = some found.route := by
  obtain ⟨within, here⟩ := List.getElem?_eq_some_iff.mp listed
  have found : ∃ j, router.position? fragment = some j := by
    rw [← Option.isSome_iff_exists, position?, List.findIdx?_isSome, List.any_eq_true]
    exact ⟨route, List.mem_of_getElem? listed, accepts⟩
  obtain ⟨j, position⟩ := found
  obtain ⟨inside, _, first⟩ := List.findIdx?_eq_some_iff_getElem.mp position
  have le : j ≤ i := by
    by_contra behind
    apply first i (not_le.mp behind)
    rw [here]
    exact accepts
  have known := find_position matched
  rw [position, Option.bind_some, List.getElem?_eq_getElem inside, Option.map_eq_some_iff] at known
  obtain ⟨found, rfl, same⟩ := known
  refine ⟨found, j, rfl, le, position, ?_⟩
  rw [List.getElem?_eq_getElem inside, same]

theorem find_unmarked {stripSlash : Bool} {codec : Codec} {router : Router}
    (sound : router.Sound stripSlash codec Template.standardHost) {fragment : Text}
    (unmarked : '?' ∉ fragment) : ∃ found, (router.find fragment).1 = .ok found := by
  rw [find_eq]
  let path := Fragment.normalize router.stripSlash fragment
  have bare : '?' ∉ path := fun mark => unmarked (Fragment.normalize_subset _ _ mark)
  cases first : router.routes.find? (·.matcher.accepts path) with
  | none => exact ⟨none, rfl⟩
  | some route =>
      obtain ⟨compiled, fresh, made⟩ := sound.routes route (List.mem_of_find?_eq_some first)
      obtain ⟨captures, matched⟩ :=
        Option.isSome_iff_exists.mp (List.find?_eq_some_iff_append.mp first).1
      have last : captures.getLast? = some none := by
        rw [made] at matched
        obtain ⟨_, _, last | ⟨query, _, inside⟩⟩ := Template.captures_compiled fresh matched
        · exact last
        · exact absurd (inside.subset List.mem_cons_self) bare
      change ∃ found, (router.outcomeAt path route).1 = .ok found
      rw [outcomeAt, extract_of_sound sound, Fragment.extract_of_captures? matched,
        Fragment.decode_plain codec last]
      exact ⟨_, rfl⟩

/-- Under the same operations a router with queries has the table of a plain router, and for a
fragment without a question mark it finds a route if the plain one does, at the same position or
an earlier one. -/
theorem find_of_plain (stripSlash : Bool) (codec : Codec) (commands : List Command)
    (fragment : Text) (unmarked : '?' ∉ fragment) :
    let host := (plain stripSlash).replay commands
    let queried := (withQueries stripSlash codec Template.standardHost).replay commands
    host.routes.map Route.registration = queried.routes.map Route.registration ∧
      ∀ found, (host.find fragment).1 = .ok (some found) →
        ∃ found' i j, (queried.find fragment).1 = .ok (some found') ∧ j ≤ i ∧
          host.position? fragment = some i ∧ host.routes[i]? = some found.route ∧
          queried.position? fragment = some j ∧ queried.routes[j]? = some found'.route := by
  intro host queried
  let kind : Kind := .withQueries codec Template.standardHost
  have registrations : host.routes.map Route.registration =
      queried.routes.map Route.registration := by
    have plainly := Kind.plain.registrations_replay stripSlash commands
    have queries := kind.registrations_replay stripSlash commands
    -- A table is a function of which templates compile, and this is the same for both routers.
    have same : (fun template => (kind.matcher template).isOk) = fun template =>
        (Kind.plain.matcher template).isOk := funext (isOk_matcher_withQueries codec)
    rw [same] at queries
    exact plainly.trans queries.symm
  refine ⟨registrations, fun found matched => ?_⟩
  obtain ⟨i, position, listed, accepts⟩ := position_of_find matched
  obtain ⟨route, listed', template⟩ := exists_twin registrations listed
  have hosted := Kind.plain.made_replay stripSlash commands _ (List.mem_of_getElem? listed)
  have made := kind.made_replay stripSlash commands _ (List.mem_of_getElem? listed')
  rw [template] at made
  have strips : host.stripSlash = queried.stripSlash :=
    (Kind.plain.keeps_replay stripSlash commands).strips.trans
      (kind.keeps_replay stripSlash commands).strips.symm
  rw [strips] at accepts
  have bare : '?' ∉ Fragment.normalize queried.stripSlash fragment := fun mark =>
    unmarked (Fragment.normalize_subset _ _ mark)
  obtain ⟨result, settled⟩ := find_unmarked (kind.keeps_replay stripSlash commands) unmarked
  obtain ⟨found', j, rfl, le, position', there⟩ :=
    exists_position settled listed' (accepts_withQueries hosted made bare accepts)
  exact ⟨found', i, j, settled, le, position, listed, position', there⟩

theorem find_of_plain_page :
    '?' ∉ "#/page/9".toList ∧
      let host := (plain true).replay pageCommands
      let queried :=
        (withQueries true ⟨.bracket, {}, .logging⟩ Template.standardHost).replay pageCommands
      (host.find "#/page/9".toList).1.toOption.join.isSome = true ∧
      host.routes.map Route.registration = queried.routes.map Route.registration ∧
      ∀ found, (host.find "#/page/9".toList).1 = .ok (some found) →
        ∃ found' i j, (queried.find "#/page/9".toList).1 = .ok (some found') ∧ j ≤ i ∧
          host.position? "#/page/9".toList = some i ∧ host.routes[i]? = some found.route ∧
          queried.position? "#/page/9".toList = some j ∧
          queried.routes[j]? = some found'.route := by
  have unmarked : '?' ∉ "#/page/9".toList := by decide
  refine ⟨unmarked, by decide +kernel, ?_⟩
  exact find_of_plain true ⟨.bracket, {}, .logging⟩ pageCommands _ unmarked

end Router

end FragmentRouting
