import FragmentRouting.Proofs.Router.Table

/-!
The journal of a run of a router: the routes that were added and not removed, in the order of their
addition. A table holds the routes of the journal by descending priority, and among equal priorities
the earlier ones first.
-/
namespace FragmentRouting.Router

/-- A route that was added, and how many routes were added before it. -/
structure Entry where
  number : Nat
  route : Route

/-- Whether an entry stands before another one in a table: with a higher priority, or with the same
and added earlier. -/
def Entry.Before (e e' : Entry) : Prop :=
  e'.route.priority < e.route.priority ∨
    e.route.priority = e'.route.priority ∧ e.number < e'.number

instance (e e' : Entry) : Decidable (e.Before e') :=
  inferInstanceAs (Decidable (_ ∨ _ ∧ _))

structure Journal where
  entries : List Entry := []
  added : Nat := 0

namespace Journal

/-- Whether an entry stands before all others with a name. -/
def First (journal : Journal) (name : Text) (e : Entry) : Prop :=
  e.route.name = name ∧
    ∀ other ∈ journal.entries, other.route.name = name → other.number = e.number ∨ e.Before other

instance (journal : Journal) (name : Text) : DecidablePred (journal.First name) := fun _ =>
  inferInstanceAs (Decidable (_ ∧ _))

def add (journal : Journal) (route : Route) : Journal where
  entries := journal.entries ++ [⟨journal.added, route⟩]
  added := journal.added + 1

/-- Strikes out the first entry with a name. -/
def remove (journal : Journal) (name : Text) : Journal :=
  { journal with entries := journal.entries.filter fun e => ¬ journal.First name e }

/-- The journal after one operation, given what templates compile to. -/
def step (make : Text → Except Fault Matcher) (journal : Journal) : Command → Journal
  | .add entry =>
    match make entry.template with
    | .ok matcher => journal.add (entry.route matcher)
    | .error _ => journal
  | .remove name => journal.remove name
  | .compile _ | .forget => journal

end Journal

/-- A table that lists the routes of a journal in the order in which they are tried. -/
structure Lists (journal : Journal) (order : List Entry) (routes : List Route) : Prop where
  numbers : journal.entries.Pairwise fun e e' => e.number < e'.number
  below : ∀ e ∈ journal.entries, e.number < journal.added
  same : order.Perm journal.entries
  ordered : order.Pairwise Entry.Before
  routes : routes = order.map Entry.route

/-! ### Entries -/

theorem Entry.Before.asymm {e e' : Entry} (h : e.Before e') : ¬ e'.Before e := by
  rintro (higher | ⟨equal, earlier⟩)
  · rcases h with lower | ⟨equal, _⟩
    · exact lt_asymm higher lower
    · exact higher.ne equal
  · rcases h with lower | ⟨_, later⟩
    · exact lower.ne equal
    · exact lt_asymm earlier later

theorem Entry.Before.priority_le {e e' : Entry} (h : e.Before e') :
    e'.route.priority ≤ e.route.priority := by
  rcases h with higher | ⟨equal, _⟩
  · exact higher.le
  · exact equal.ge

theorem lists_empty : Lists {} [] [] := ⟨.nil, List.forall_mem_nil _, .nil, .nil, rfl⟩

theorem lower_of_mem_dropWhile {p : Int} {order : List Entry}
    (ordered : order.Pairwise Entry.Before) {e : Entry}
    (member : e ∈ order.dropWhile fun other => p ≤ other.route.priority) :
    e.route.priority < p := by
  induction order with
  | nil => exact absurd member List.not_mem_nil
  | cons first rest ih =>
      obtain ⟨before, others⟩ := List.pairwise_cons.mp ordered
      rw [List.dropWhile_cons] at member
      split at member
      next => exact ih others member
      next low =>
          have low : first.route.priority < p := by
            rw [decide_eq_true_iff, not_le] at low
            exact low
          rcases List.mem_cons.mp member with rfl | behind
          · exact low
          · exact (before e behind).priority_le.trans_lt low

theorem pairwise_placeBy {e : Entry} {order : List Entry}
    (ordered : order.Pairwise Entry.Before) (latest : ∀ other ∈ order, other.number < e.number) :
    (placeBy (·.route.priority) e order).Pairwise Entry.Before := by
  have front := ordered.sublist (List.takeWhile_sublist
    fun other : Entry => e.route.priority ≤ other.route.priority)
  have whole := List.takeWhile_append_dropWhile (l := order)
    (p := fun other : Entry => e.route.priority ≤ other.route.priority)
  rw [← whole, List.pairwise_append] at ordered
  obtain ⟨_, back, across⟩ := ordered
  refine List.pairwise_append.mpr ⟨front, List.pairwise_cons.mpr ⟨?_, back⟩, ?_⟩
  · intro other behind
    exact .inl (lower_of_mem_dropWhile (whole ▸ List.pairwise_append.mpr ⟨front, back, across⟩)
      behind)
  · intro other ahead
    have high := List.mem_takeWhile_imp ahead
    rw [decide_eq_true_iff] at high
    have earlier := latest other ((List.takeWhile_sublist _).subset ahead)
    refine List.forall_mem_cons.mpr ⟨?_, across other ahead⟩
    rcases high.lt_or_eq with higher | equal
    · exact .inl higher
    · exact .inr ⟨equal.symm, earlier⟩

/-! ### Runs -/

namespace Lists

variable {journal : Journal} {order : List Entry} {routes : List Route}

theorem add (lists : Lists journal order routes) (route : Route) :
    Lists (journal.add route) (placeBy (·.route.priority) ⟨journal.added, route⟩ order)
      (place route routes) where
  numbers := by
    refine List.pairwise_append.mpr ⟨lists.numbers, List.pairwise_singleton _ _, ?_⟩
    intro e member
    exact List.forall_mem_singleton.mpr (lists.below e member)
  below := by
    intro e member
    rcases List.mem_append.mp member with earlier | latest
    · exact Nat.lt_succ_of_lt (lists.below e earlier)
    · rw [List.mem_singleton.mp latest]
      exact Nat.lt_succ_self _
  same := (perm_placeBy _ _ order).trans (lists.same.append_right _)
  ordered := pairwise_placeBy lists.ordered fun other member =>
    lists.below other (lists.same.mem_iff.mp member)
  routes := by
    rw [lists.routes, place_eq_placeBy]
    exact (map_placeBy Route.priority Entry.route ⟨journal.added, route⟩ order).symm

theorem eq_of_number (lists : Lists journal order routes) {e e' : Entry} (member : e ∈ order)
    (member' : e' ∈ order) (same : e.number = e'.number) : e = e' := by
  have distinct : (journal.entries.map Entry.number).Nodup :=
    List.pairwise_map.mpr (lists.numbers.imp Nat.ne_of_lt)
  exact List.inj_on_of_nodup_map distinct (lists.same.mem_iff.mp member)
    (lists.same.mem_iff.mp member') same

/-- The first entry with a name in the order of a table is the first one in the journal's sense, and
no entry behind it is. -/
theorem first_of_split (lists : Lists journal order routes) {name : Text} {e : Entry}
    {before after : List Entry} (split : order = before ++ e :: after)
    (unnamed : ∀ other ∈ before, other.route.name ≠ name) (named : e.route.name = name) :
    journal.First name e ∧ ∀ other ∈ after, ¬ journal.First name other := by
  have ordered := lists.ordered
  rw [split] at ordered
  obtain ⟨_, rest, _⟩ := List.pairwise_append.mp ordered
  obtain ⟨ahead, _⟩ := List.pairwise_cons.mp rest
  have within (other : Entry) (member : other ∈ e :: after) : other ∈ order := by
    rw [split]
    exact List.mem_append_right before member
  refine ⟨⟨named, fun other entered same => ?_⟩, fun other behind second => ?_⟩
  · have listed := lists.same.mem_iff.mpr entered
    rw [split] at listed
    rcases List.mem_append.mp listed with here | behind
    · exact absurd same (unnamed other here)
    rcases List.mem_cons.mp behind with equal | behind
    · exact .inl (congrArg Entry.number equal)
    · exact .inr (ahead other behind)
  · have first := within e List.mem_cons_self
    rcases second.2 e (lists.same.mem_iff.mp first) named with same | earlier
    · have equal := lists.eq_of_number first (within other (List.mem_cons_of_mem e behind)) same
      have itself := ahead other behind
      rw [← equal] at itself
      exact itself.asymm itself
    · exact earlier.asymm (ahead other behind)

/-- What is struck out of the journal is what is removed from the table. -/
theorem filter_first (lists : Lists journal order routes) (name : Text) :
    order.filter (fun e => ¬ journal.First name e) = order.eraseP (·.route.name == name) := by
  have others (e : Entry) (unnamed : ¬ (e.route.name == name) = true) : ¬ journal.First name e :=
    fun first => unnamed (beq_iff_eq.mpr first.1)
  by_cases listed : ∃ e ∈ order, (e.route.name == name) = true
  · obtain ⟨some_, member, named⟩ := listed
    obtain ⟨e, before, after, unnamed, named, split, erased⟩ :=
      List.exists_of_eraseP (p := fun e : Entry => e.route.name == name) member named
    obtain ⟨first, only⟩ := lists.first_of_split split
      (fun other here same => unnamed other here (beq_iff_eq.mpr same)) (beq_iff_eq.mp named)
    rw [erased, split, List.filter_append, List.filter_cons_of_neg, List.filter_eq_self.mpr,
      List.filter_eq_self.mpr]
    · exact fun other behind => decide_eq_true (only other behind)
    · exact fun other here => decide_eq_true (others other (unnamed other here))
    · exact fun kept => of_decide_eq_true kept first
  · have unnamed (e : Entry) (member : e ∈ order) : ¬ (e.route.name == name) = true :=
      fun named => listed ⟨e, member, named⟩
    rw [List.eraseP_of_forall_not unnamed, List.filter_eq_self]
    exact fun e member => decide_eq_true (others e (unnamed e member))

theorem remove (lists : Lists journal order routes) (name : Text) :
    Lists (journal.remove name) (order.eraseP (·.route.name == name))
      (routes.eraseP (·.name == name)) where
  numbers := lists.numbers.sublist List.filter_sublist
  below := fun e member => lists.below e (List.mem_of_mem_filter member)
  same := by
    rw [← lists.filter_first]
    exact lists.same.filter _
  ordered := lists.ordered.sublist List.eraseP_sublist
  routes := by
    rw [lists.routes, List.eraseP_map]
    rfl

theorem step (lists : Lists journal order routes) (make : Text → Except Fault Matcher)
    (command : Command) :
    ∃ order', Lists (journal.step make command) order' (tableStep make routes command) := by
  cases command with
  | add entry =>
      rw [Journal.step, tableStep]
      cases make entry.template with
      | error fault => exact ⟨order, lists⟩
      | ok matcher => exact ⟨_, lists.add (entry.route matcher)⟩
  | remove name => exact ⟨_, lists.remove name⟩
  | compile template => exact ⟨order, lists⟩
  | forget => exact ⟨order, lists⟩

theorem run (lists : Lists journal order routes) (make : Text → Except Fault Matcher)
    (commands : List Command) :
    ∃ order', Lists (commands.foldl (Journal.step make) journal) order'
      (commands.foldl (tableStep make) routes) := by
  induction commands generalizing journal order routes with
  | nil => exact ⟨order, lists⟩
  | cons command commands ih =>
      obtain ⟨order', lists'⟩ := lists.step make command
      exact ih lists'

end Lists

/-- A call of a router: an operation, the addition of a route by decorating its handler, or looking
for the route of a fragment. -/
inductive Call where
  | operate (command : Command)
  | decorate (entry : Registration) (handler : Handler)
  | find (fragment : Text)

/-- The operation that a call comes to, if it can change the router. -/
def Call.command? : Call → Option Command
  | .operate command => some command
  | .decorate entry handler => some (.add { entry with handler := some handler })
  | .find _ => none

namespace Kind

/-- A router of some kind after several calls. -/
def after (stripSlash : Bool) (calls : List Call) (kind : Kind) : Router :=
  (kind.start stripSlash).replay (calls.filterMap Call.command?)

/-- The journal of several calls. -/
def journal (calls : List Call) (kind : Kind) : Journal :=
  (calls.filterMap Call.command?).foldl (Journal.step kind.matcher) {}

end Kind

/-- After any calls the table holds the routes that were added and not removed, by descending
priority and otherwise in the order of their addition. Adding a route sorts it in, or fails with its
template and changes nothing in the table; removing a name takes out the first route with the name
and no other one; and the route of a fragment is the first one whose matcher accepts it, unless its
query has a fault and the sink lets an exception out. -/
theorem table_after_calls (kind : Kind) (stripSlash : Bool) (calls : List Call) :
    let router := kind.after stripSlash calls
    (∃ order : List Entry, order.Perm (kind.journal calls).entries ∧
        order.Pairwise Entry.Before ∧ router.routes = order.map Entry.route) ∧
      (∀ entry : Registration,
        (router.add entry.template entry.route).1 =
            (kind.matcher entry.template).map (fun _ => ()) ∧
          (router.add entry.template entry.route).2.1.routes =
            match kind.matcher entry.template with
            | .ok matcher => (router.routes ++ [entry.route matcher]).mergeSort mayPrecede
            | .error _ => router.routes) ∧
      (∀ name : Text,
        (∃ before route after, router.routes = before ++ route :: after ∧
            (∀ other ∈ before, other.name ≠ name) ∧ route.name = name ∧
            router.remove name = (true, { router with routes := before ++ after })) ∨
          (∀ route ∈ router.routes, route.name ≠ name) ∧ router.remove name = (false, router)) ∧
      ∀ fragment : Text,
        let first :=
          router.routes.find? (·.matcher.accepts (Fragment.normalize stripSlash fragment))
        (router.find fragment).1.map (Option.map RouteMatch.route) = .ok first ∨
          first ≠ none ∧
            ∃ raised, kind.Escapes raised ∧ (router.find fragment).1 = .error raised := by
  intro router
  have keeps : kind.Keeps stripSlash router := kind.keeps_replay stripSlash _
  -- Calls that only search leave the table as it is.
  obtain ⟨order, lists⟩ := lists_empty.run kind.matcher (calls.filterMap Call.command?)
  have listed : router.routes = order.map Entry.route :=
    (kind.routes_replay stripSlash _).trans lists.routes
  have sorted : Descending router.routes := by
    rw [listed]
    exact List.pairwise_map.mpr (lists.ordered.imp Entry.Before.priority_le)
  refine ⟨⟨order, lists.same, lists.ordered, listed⟩, ?_, router.remove_cases, keeps.find_route⟩
  intro entry
  obtain ⟨result, routes⟩ := keeps.add entry
  refine ⟨result, routes.trans ?_⟩
  rw [tableStep]
  cases kind.matcher entry.template with
  | error fault => rfl
  | ok matcher => exact place_eq_mergeSort sorted (entry.route matcher)

end FragmentRouting.Router
