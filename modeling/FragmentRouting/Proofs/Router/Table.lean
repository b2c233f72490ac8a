import FragmentRouting.Proofs.Router.Query

/-!
The table of a router throughout a run. It depends on the operations and on what templates compile
to, and on nothing else: the state of a compiler has no influence. A new route is put where sorting
the table again would put it, and the route of a fragment is the first one that accepts it.
-/
namespace FragmentRouting.Router

/-! ### Placing -/

section Placing

variable {α β : Type} (priority : α → Int)

/-- Puts something behind all that has the same or a higher priority. -/
def placeBy (a : α) (l : List α) : List α :=
  l.takeWhile (fun b => priority a ≤ priority b) ++
    a :: l.dropWhile fun b => priority a ≤ priority b

theorem place_eq_placeBy (route : Route) (routes : List Route) :
    place route routes = placeBy Route.priority route routes := rfl

theorem map_placeBy (f : β → α) (b : β) (l : List β) :
    (placeBy (fun b => priority (f b)) b l).map f = placeBy priority (f b) (l.map f) := by
  rw [placeBy, placeBy, List.takeWhile_map, List.dropWhile_map, List.map_append, List.map_cons]
  rfl

theorem perm_placeBy (a : α) (l : List α) : (placeBy priority a l).Perm (l ++ [a]) := by
  have whole := List.takeWhile_append_dropWhile (p := fun b => priority a ≤ priority b) (l := l)
  refine (List.perm_middle.trans ?_).trans (List.perm_append_singleton a l).symm
  rw [whole]

end Placing

def Descending (routes : List Route) : Prop :=
  routes.Pairwise fun route other => other.priority ≤ route.priority

theorem place_cons_of_le {route first : Route} (le : route.priority ≤ first.priority)
    (rest : List Route) : place route (first :: rest) = first :: place route rest := by
  rw [place, List.takeWhile_cons_of_pos (p := fun r : Route => route.priority ≤ r.priority)
      (decide_eq_true le),
    List.dropWhile_cons_of_pos (p := fun r : Route => route.priority ≤ r.priority)
      (decide_eq_true le)]
  rfl

theorem place_of_lt {route : Route} {routes : List Route}
    (lt : ∀ other ∈ routes, other.priority < route.priority) :
    place route routes = route :: routes := by
  cases routes with
  | nil => rfl
  | cons first rest =>
      have above : ¬ decide (route.priority ≤ first.priority) = true := by
        rw [decide_eq_true_iff, not_le]
        exact lt first List.mem_cons_self
      rw [place, List.takeWhile_cons_of_neg (p := fun r : Route => route.priority ≤ r.priority)
          above,
        List.dropWhile_cons_of_neg (p := fun r : Route => route.priority ≤ r.priority) above]
      rfl

def mayPrecede (route other : Route) : Bool := other.priority ≤ route.priority

theorem mayPrecede_trans (a b c : Route) (first : mayPrecede a b = true)
    (second : mayPrecede b c = true) : mayPrecede a c = true := by
  rw [mayPrecede, decide_eq_true_iff] at first second ⊢
  exact second.trans first

theorem priority_lt_of_not_mayPrecede {route other : Route}
    (h : (!mayPrecede route other) = true) : route.priority < other.priority := by
  rw [Bool.not_eq_true', mayPrecede, decide_eq_false_iff_not, not_le] at h
  exact h

theorem mayPrecede_total (a b : Route) : (mayPrecede a b || mayPrecede b a) = true := by
  rw [mayPrecede, mayPrecede, Bool.or_eq_true, decide_eq_true_iff, decide_eq_true_iff]
  exact le_total b.priority a.priority

theorem mergeSort_cons_of_le {first : Route} {others : List Route}
    (le : ∀ other ∈ others, other.priority ≤ first.priority) :
    (first :: others).mergeSort mayPrecede = first :: others.mergeSort mayPrecede := by
  obtain ⟨front, back, whole, parts, above⟩ :=
    List.mergeSort_cons mayPrecede_trans mayPrecede_total first others
  have nothing : front = [] := by
    apply List.eq_nil_iff_forall_not_mem.mpr
    intro other member
    have listed : other ∈ others :=
      List.mem_mergeSort.mp (parts ▸ List.mem_append_left back member)
    exact (le other listed).not_gt (priority_lt_of_not_mayPrecede (above other member))
  rw [whole, parts, nothing]
  rfl

theorem mergeSort_concat_of_lt {route : Route} {routes : List Route} (sorted : Descending routes)
    (lt : ∀ other ∈ routes, other.priority < route.priority) :
    (routes ++ [route]).mergeSort mayPrecede = route :: routes := by
  induction routes with
  | nil => exact List.mergeSort_singleton route
  | cons first rest ih =>
      obtain ⟨below, sorted⟩ := List.pairwise_cons.mp sorted
      obtain ⟨high, lt⟩ := List.forall_mem_cons.mp lt
      obtain ⟨front, back, whole, parts, above⟩ :=
        List.mergeSort_cons mayPrecede_trans mayPrecede_total first (rest ++ [route])
      rw [ih sorted lt] at parts
      rw [List.cons_append, whole]
      -- Of the rest nothing comes before the first one, so the front is the new route alone.
      cases front with
      | nil =>
          have ordered := List.pairwise_mergeSort mayPrecede_trans mayPrecede_total
            (first :: (rest ++ [route]))
          rw [whole, List.nil_append, ← List.nil_append back, ← parts] at ordered
          have here := (List.pairwise_cons.mp ordered).1 route List.mem_cons_self
          rw [mayPrecede, decide_eq_true_iff] at here
          exact absurd here (not_le.mpr high)
      | cons top front =>
          obtain ⟨rfl, tail⟩ := List.cons.inj parts
          have tail : rest = front ++ back := tail
          have nothing : front = [] := by
            apply List.eq_nil_iff_forall_not_mem.mpr
            intro other member
            have le := below other (tail ▸ List.mem_append_left back member)
            have passed := above other (List.mem_cons_of_mem route member)
            exact le.not_gt (priority_lt_of_not_mayPrecede passed)
          rw [tail, nothing]
          rfl

/-- To place a route is to put it at the end and to sort the table again, keeping the order of
routes with equal priorities. -/
theorem place_eq_mergeSort {routes : List Route} (sorted : Descending routes) (route : Route) :
    place route routes = (routes ++ [route]).mergeSort mayPrecede := by
  induction routes with
  | nil => exact (List.mergeSort_singleton route).symm
  | cons first rest ih =>
      obtain ⟨below, others⟩ := List.pairwise_cons.mp sorted
      by_cases le : route.priority ≤ first.priority
      · have below := List.forall_mem_append.mpr ⟨below, List.forall_mem_singleton.mpr le⟩
        rw [place_cons_of_le le, ih others, List.cons_append, mergeSort_cons_of_le below]
      · have lt := not_le.mp le
        have all : ∀ other ∈ first :: rest, other.priority < route.priority :=
          List.forall_mem_cons.mpr ⟨lt, fun other member => (below other member).trans_lt lt⟩
        rw [place_of_lt all, mergeSort_concat_of_lt sorted all]

/-! ### Removing -/

/-- The first route with a name is removed, and no other one. -/
theorem remove_cases (router : Router) (name : Text) :
    (∃ before route after, router.routes = before ++ route :: after ∧
        (∀ other ∈ before, other.name ≠ name) ∧ route.name = name ∧
        router.remove name = (true, { router with routes := before ++ after })) ∨
      (∀ route ∈ router.routes, route.name ≠ name) ∧ router.remove name = (false, router) := by
  by_cases listed : ∃ route ∈ router.routes, (route.name == name) = true
  · obtain ⟨route, member, named⟩ := listed
    obtain ⟨first, before, after, unnamed, named, split, erased⟩ :=
      List.exists_of_eraseP (p := fun route : Route => route.name == name) member named
    refine .inl ⟨before, first, after, split, ?_, beq_iff_eq.mp named, ?_⟩
    · intro other ahead same
      exact unnamed other ahead (beq_iff_eq.mpr same)
    · rw [remove, erased]
      have found : router.routes.any (·.name == name) = true :=
        List.any_eq_true.mpr ⟨first, split ▸ List.mem_append_right before List.mem_cons_self, named⟩
      rw [found]
  · have unnamed (route : Route) (member : route ∈ router.routes) : ¬ (route.name == name) = true :=
      fun named => listed ⟨route, member, named⟩
    refine .inr ⟨fun route member same => unnamed route member (beq_iff_eq.mpr same), ?_⟩
    have missed : router.routes.any (·.name == name) = false :=
      List.any_eq_false.mpr unnamed
    rw [remove, missed, List.eraseP_of_forall_not unnamed]

/-! ### Runs -/

/-- What a router is made for: fragments as they are, or fragments with queries. -/
inductive Kind where
  | plain
  | withQueries (codec : Codec) (host : Template.Host)

namespace Kind

def start (stripSlash : Bool) : Kind → Router
  | plain => Router.plain stripSlash
  | withQueries codec host => Router.withQueries stripSlash codec host

def matcher : Kind → Text → Except Fault Matcher
  | plain, template => Template.standardHost template
  | withQueries _ host, template =>
    (Template.compileFresh host {} template).1.map Template.Compiled.matcher

/-- Whether the sink of a router of some kind lets an exception out. -/
def Escapes (raised : Raised) : Kind → Prop
  | plain => False
  | withQueries codec _ =>
    ∃ query fault, (codec.sink.deliver query fault).1 = .error raised

end Kind

/-- What holds of a plain router throughout a run. -/
structure Plain (stripSlash : Bool) (router : Router) : Prop where
  strips : router.stripSlash = stripSlash
  host : router.host = Template.standardHost
  queries : router.queries = none

/-- What holds of a router of some kind throughout a run. -/
def Kind.Keeps (stripSlash : Bool) (router : Router) : Kind → Prop
  | .plain => router.Plain stripSlash
  | .withQueries codec host => router.Sound stripSlash codec host

def tableStep (make : Text → Except Fault Matcher) (routes : List Route) : Command → List Route
  | .add entry =>
    match make entry.template with
    | .ok matcher => place (entry.route matcher) routes
    | .error _ => routes
  | .remove name => routes.eraseP (·.name == name)
  | .compile _ | .forget => routes

theorem routes_compile (router : Router) (template : Text) :
    (router.compile template).2.1.routes = router.routes := by
  unfold compile
  cases router.queries with
  | none => rfl
  | some support => rfl

theorem Plain.compile {stripSlash : Bool} {router : Router} (plain : router.Plain stripSlash)
    (template : Text) : (router.compile template).2.1 = router := by
  unfold Router.compile
  rw [plain.queries]

theorem Plain.step {stripSlash : Bool} {router : Router} (plain : router.Plain stripSlash)
    (command : Command) : (router.step command).Plain stripSlash := by
  cases command with
  | add entry =>
      have same := plain.compile entry.template
      rw [Router.step, Router.add, Router.matcherOf]
      generalize router.compile entry.template = outcome at same
      obtain ⟨result, after, notices⟩ := outcome
      have same : after = router := same
      rw [same]
      cases result with
      | error fault => exact plain
      | ok object => exact ⟨plain.strips, plain.host, plain.queries⟩
  | remove name => exact ⟨plain.strips, plain.host, plain.queries⟩
  | compile template =>
      rw [Router.step, plain.compile]
      exact plain
  | forget => exact ⟨plain.strips, plain.host, congrArg (Option.map _) plain.queries⟩

namespace Kind.Keeps

variable {stripSlash : Bool} {router : Router} {kind : Kind}

theorem start (stripSlash : Bool) (kind : Kind) :
    kind.Keeps stripSlash (kind.start stripSlash) := by
  cases kind with
  | plain => exact ⟨rfl, rfl, rfl⟩
  | withQueries codec host => exact sound_withQueries

theorem strips (keeps : kind.Keeps stripSlash router) : router.stripSlash = stripSlash := by
  cases kind with
  | plain => exact Plain.strips keeps
  | withQueries codec host => exact Sound.strips keeps

/-- A template gives the matcher of the router's kind, whatever was compiled before. -/
theorem matcherOf (keeps : kind.Keeps stripSlash router) (template : Text) :
    (router.matcherOf template).1 = kind.matcher template := by
  cases kind with
  | plain =>
      obtain ⟨_, host, queries⟩ := keeps
      rw [Router.matcherOf, Router.compile, queries]
      change ((router.host template).map _).map _ = _
      rw [host, Kind.matcher]
      cases Template.standardHost template with
      | error fault => rfl
      | ok matcher => rfl
  | withQueries codec host =>
      exact congrArg (Except.map Template.Compiled.matcher) (Sound.compile keeps template).1

theorem compile (keeps : kind.Keeps stripSlash router) (template : Text) :
    kind.Keeps stripSlash (router.compile template).2.1 := by
  cases kind with
  | plain =>
      rw [Plain.compile keeps]
      exact keeps
  | withQueries codec host => exact (Sound.compile keeps template).2

theorem add (keeps : kind.Keeps stripSlash router) (entry : Registration) :
    (router.add entry.template entry.route).1 = (kind.matcher entry.template).map (fun _ => ()) ∧
      (router.add entry.template entry.route).2.1.routes =
        tableStep kind.matcher router.routes (.add entry) := by
  have made := keeps.matcherOf entry.template
  have same := router.routes_compile entry.template
  rw [Router.add, tableStep, ← made]
  unfold Router.matcherOf
  generalize router.compile entry.template = outcome at same
  obtain ⟨result, compiled, notices⟩ := outcome
  cases result with
  | error fault => exact ⟨rfl, same⟩
  | ok object => exact ⟨rfl, congrArg (place (entry.route object.matcher)) same⟩

/-- The route of a fragment is the first one in the table that accepts it, unless the sink lets an
exception out. -/
theorem find_route (keeps : kind.Keeps stripSlash router) (fragment : Text) :
    let first := router.routes.find? (·.matcher.accepts (Fragment.normalize stripSlash fragment))
    (router.find fragment).1.map (Option.map RouteMatch.route) = .ok first ∨
      first ≠ none ∧ ∃ raised, kind.Escapes raised ∧ (router.find fragment).1 = .error raised := by
  intro first
  rw [find, keeps.strips]
  rcases router.firstMatch_cases (Fragment.normalize stripSlash fragment) router.routes with
    found | ⟨some_, support, query, fault, raised, queries, delivered, escaped⟩
  · exact .inl found
  · refine .inr ⟨some_, raised, ?_, escaped⟩
    cases kind with
    | plain => cases (Plain.queries keeps).symm.trans queries
    | withQueries codec host =>
        obtain ⟨compiler, own, _⟩ := Sound.support keeps
        have same : support = ⟨codec, compiler⟩ := Option.some.inj (queries.symm.trans own)
        rw [same] at delivered
        exact ⟨query, fault, delivered⟩

theorem step (keeps : kind.Keeps stripSlash router) (command : Command) :
    kind.Keeps stripSlash (router.step command) := by
  cases kind with
  | plain => exact Plain.step keeps command
  | withQueries codec host => exact Sound.step keeps command

theorem routes_step (keeps : kind.Keeps stripSlash router) (command : Command) :
    (router.step command).routes = tableStep kind.matcher router.routes command := by
  cases command with
  | add entry => exact (keeps.add entry).2
  | remove name => rfl
  | compile template => exact router.routes_compile template
  | forget => rfl

theorem replay (keeps : kind.Keeps stripSlash router) (commands : List Command) :
    kind.Keeps stripSlash (router.replay commands) ∧
      (router.replay commands).routes =
        commands.foldl (tableStep kind.matcher) router.routes := by
  induction commands generalizing router with
  | nil => exact ⟨keeps, rfl⟩
  | cons command commands ih =>
      obtain ⟨kept, routes⟩ := ih (keeps.step command)
      refine ⟨kept, ?_⟩
      rw [List.foldl_cons, ← keeps.routes_step command]
      exact routes

end Kind.Keeps

namespace Kind

variable (kind : Kind) (stripSlash : Bool) (commands : List Command)

theorem keeps_replay : kind.Keeps stripSlash ((kind.start stripSlash).replay commands) :=
  ((Keeps.start stripSlash kind).replay commands).1

theorem routes_replay :
    ((kind.start stripSlash).replay commands).routes =
      commands.foldl (tableStep kind.matcher) [] := by
  have empty : (kind.start stripSlash).routes = [] := by
    cases kind with
    | plain => rfl
    | withQueries codec host => rfl
  rw [((Keeps.start stripSlash kind).replay commands).2, empty]

end Kind

end FragmentRouting.Router
