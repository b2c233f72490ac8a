import FragmentRouting.Proofs.Fragment.Extract
import FragmentRouting.Router.Basic

namespace FragmentRouting.Router

variable {matcher : Matcher} {path : Text}

theorem captures?_of_rejects (rejected : matcher.accepts path = false) :
    matcher.captures? path = none :=
  Option.isNone_iff_eq_none.mp (Option.isSome_eq_false_iff.mp rejected)

theorem extract_of_rejects (router : Router) (rejected : matcher.accepts path = false) :
    router.extract matcher path = (.ok none, []) := by
  have missed := captures?_of_rejects rejected
  rw [extract]
  cases router.queries with
  | none =>
      dsimp only
      rw [missed]
      rfl
  | some support =>
      dsimp only
      rw [Fragment.extract, missed]

theorem extract_of_captures? {router : Router} {support : QuerySupport}
    (queries : router.queries = some support) {captures : List (Option Text)}
    (matched : matcher.captures? path = some captures) :
    router.extract matcher path =
      ((Fragment.decode support.codec (captures.map Fragment.parameter)).1.map some,
        (Fragment.decode support.codec (captures.map Fragment.parameter)).2) := by
  rw [extract, queries]
  exact Fragment.extract_of_captures? matched

theorem extract_of_accepts (router : Router) (accepted : matcher.accepts path = true) :
    ∃ (params : Except Raised (List Value)) (notices : List Notice),
      router.extract matcher path = (params.map some, notices) := by
  obtain ⟨captures, matched⟩ := Option.isSome_iff_exists.mp accepted
  cases queries : router.queries with
  | none =>
      refine ⟨.ok (captures.map Fragment.parameter), [], ?_⟩
      rw [extract, queries]
      dsimp only
      rw [matched]
      rfl
  | some support => exact ⟨_, _, extract_of_captures? queries matched⟩

theorem accepts_of_extract (router : Router) {params : Option (List Value)}
    (extracted : (router.extract matcher path).1 = .ok params) :
    matcher.accepts path = params.isSome := by
  cases accepted : matcher.accepts path with
  | false =>
      rw [router.extract_of_rejects accepted] at extracted
      rw [← Except.ok.inj extracted]
      rfl
  | true =>
      obtain ⟨given, _, same⟩ := router.extract_of_accepts accepted
      rw [same] at extracted
      obtain ⟨_, -, rfl⟩ := map_eq_ok_iff.mp extracted
      rfl

theorem deliver_of_extract (router : Router) {raised : Raised}
    (escaped : (router.extract matcher path).1 = .error raised) :
    ∃ support query fault, router.queries = some support ∧
      (support.codec.sink.deliver query fault).1 = .error raised := by
  cases queries : router.queries with
  | none =>
      rw [extract, queries] at escaped
      cases escaped
  | some support =>
      cases accepted : matcher.accepts path with
      | false =>
          rw [router.extract_of_rejects accepted] at escaped
          cases escaped
      | true =>
          obtain ⟨captures, matched⟩ := Option.isSome_iff_exists.mp accepted
          rw [extract_of_captures? queries matched, map_eq_error_iff] at escaped
          obtain ⟨query, fault, delivered⟩ := Fragment.deliver_of_decode _ escaped
          exact ⟨support, query, fault, rfl, delivered⟩

def outcomeAt (router : Router) (path : Text) (route : Route) :
    Except Raised (Option RouteMatch) × List Notice :=
  ((router.extract route.matcher path).1.map (Option.map (RouteMatch.mk route)),
    (router.extract route.matcher path).2)

theorem firstMatch_eq (router : Router) (path : Text) (routes : List Route) :
    router.firstMatch path routes =
      match routes.find? (·.matcher.accepts path) with
      | none => (.ok none, [])
      | some route => router.outcomeAt path route := by
  induction routes with
  | nil => rfl
  | cons route rest ih =>
      rw [firstMatch, List.find?_cons]
      cases accepted : route.matcher.accepts path with
      | true =>
          obtain ⟨params, notices, extracted⟩ := router.extract_of_accepts accepted
          simp only [outcomeAt, extracted]
          cases params <;> rfl
      | false =>
          rw [router.extract_of_rejects accepted]
          exact ih

theorem find_eq (router : Router) (fragment : Text) :
    let path := Fragment.normalize router.stripSlash fragment
    router.find fragment =
      match router.routes.find? (·.matcher.accepts path) with
      | none => (.ok none, [])
      | some route => router.outcomeAt path route :=
  router.firstMatch_eq _ _

/-- The search comes to the first route that accepts the path, or to an exception that the sink lets
out. -/
theorem firstMatch_cases (router : Router) (path : Text) (routes : List Route) :
    let first := routes.find? (·.matcher.accepts path)
    (router.firstMatch path routes).1.map (Option.map RouteMatch.route) = .ok first ∨
      first ≠ none ∧ ∃ support query fault raised, router.queries = some support ∧
        (support.codec.sink.deliver query fault).1 = .error raised ∧
        (router.firstMatch path routes).1 = .error raised := by
  intro first
  rw [firstMatch_eq]
  cases found : routes.find? (·.matcher.accepts path) with
  | none => exact .inl (congrArg Except.ok found.symm)
  | some route =>
      have accepted := (List.find?_eq_some_iff_append.mp found).1
      change (router.outcomeAt path route).1.map _ = _ ∨ _
      rw [outcomeAt]
      cases extracted : (router.extract route.matcher path).1 with
      | ok params =>
          have given := router.accepts_of_extract extracted
          rw [accepted] at given
          obtain ⟨params, rfl⟩ := Option.isSome_iff_exists.mp given.symm
          exact .inl (congrArg Except.ok found.symm)
      | error raised =>
          obtain ⟨support, query, fault, queries, delivered⟩ := router.deliver_of_extract extracted
          refine .inr ⟨?_, support, query, fault, raised, queries, delivered, ?_⟩
          · exact fun missed => nomatch found.symm.trans missed
          · change (router.outcomeAt path route).1 = _
            rw [outcomeAt, extracted]
            rfl

end FragmentRouting.Router
