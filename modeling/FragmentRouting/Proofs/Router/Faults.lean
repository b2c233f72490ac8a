import FragmentRouting.Proofs.Router.Query

/-!
Faults of queries while a fragment is matched. The sink is told of a query that cannot be read, for
whatever reason, and has no influence on what is found. Only the first route that matches can cause
this. What a sink raises ends in the log, unless it is meant to end the program or has no text.
-/
namespace FragmentRouting

namespace Sink

variable {α β : Type} (sink : Sink)

/-- The call of a sink with a query and its fault, and what the sink logs during the call. -/
def told (query : Text) (fault : Fault) : List Notice :=
  .report query fault ::
    (sink.call query fault).2.map fun (level, message) => .log level message

/-- A result beside which the sink may have to be told of a query and its fault. -/
def settle (flawed : Option (Text × Fault)) (a : α) : Except Raised α × List Notice :=
  match flawed with
  | none => (.ok a, [])
  | some (query, fault) =>
    ((sink.deliver query fault).1.map fun _ => a, (sink.deliver query fault).2)

theorem settle_map (flawed : Option (Text × Fault)) (f : α → β) (a : α) :
    ((sink.settle flawed a).1.map f, (sink.settle flawed a).2) = sink.settle flawed (f a) := by
  cases flawed with
  | none => rfl
  | some told =>
      rw [settle, settle]
      cases (sink.deliver told.1 told.2).1 <;> rfl

/-- How a result stands after a call of the sink, by the way in which the call ends. -/
structure Settles (query : Text) (fault : Fault) (a : α) (outcome : Except Raised α × List Notice) :
    Prop where
  /-- The sink returns. -/
  returned : (sink.call query fault).1 = .ok () → outcome = (.ok a, sink.told query fault)
  /-- It raises an ordinary exception, which makes one more entry in the log. -/
  logged : ∀ text, (sink.call query fault).1 = .error (.texted true text) →
    outcome = (.ok a, sink.told query fault ++
      [.log .error ("Diagnostic sink error: ".toList ++ text)])
  /-- It raises an exception without a text, and another one comes of asking for the text. -/
  textless : ∀ instead, (sink.call query fault).1 = .error (.textless true instead) →
    outcome = (.error instead, sink.told query fault)
  /-- It raises an exception that is meant to end the program. -/
  ending : ∀ raised, (sink.call query fault).1 = .error raised → raised.ordinary = false →
    outcome = (.error raised, sink.told query fault)

theorem settles (query : Text) (fault : Fault) (a : α) :
    sink.Settles query fault a (sink.settle (some (query, fault)) a) where
  returned same := by
    simp only [settle, deliver, told, same]
    rfl
  logged text same := by
    simp only [settle, deliver, told, same, Raised.ordinary, if_true]
    rfl
  textless instead same := by
    simp only [settle, deliver, told, same, Raised.ordinary, if_true]
    rfl
  ending raised same other := by
    simp only [settle, deliver, told, same, other, Bool.false_eq_true, if_false]
    rfl

end Sink

namespace Fragment

variable {codec : Codec} {captures : List (Option Text)}

/-- Whether the last of some captures is a query, and a codec finds a fault in it. -/
def Faulty (codec : Codec) (captures : List (Option Text)) (query : Text) (fault : Fault) : Prop :=
  captures.getLast? = some (some ('?' :: query)) ∧ (codec.read query).fault = some fault

/-- Captures as parameters, with what a query reads as for the last one. -/
structure Decodes (codec : Codec) (captures : List (Option Text)) (params : List Value)
    (flawed : Option (Text × Fault)) : Prop where
  others : params.dropLast = captures.dropLast.map parameter
  flawed_iff : ∀ query fault, flawed = some (query, fault) ↔ Faulty codec captures query fault
  empty : flawed ≠ none → params.getLast? = some (Params.toValue [])

/-- What captures decode to does not depend on the sink. It is told of the query if this has a
fault. -/
theorem decode_settle (codec : Codec) (captures : List (Option Text)) :
    ∃ params flawed, Decodes codec captures params flawed ∧
      ∀ sink : Sink, decode { codec with sink } (captures.map parameter) =
        sink.settle flawed params := by
  -- Reading does not involve the sink, so all cases are settled before a sink is given.
  by_cases queried : ∃ query, captures.getLast? = some (some ('?' :: query))
  · obtain ⟨query, last⟩ := queried
    have only (other : Text) (same : captures.getLast? = some (some ('?' :: other))) :
        other = query := by
      rw [last, Option.some.injEq, Option.some.injEq, List.cons.injEq] at same
      exact same.2.symm
    cases parsed : codec.parse query with
    | ok map =>
        have sound : (codec.read query).fault = none := by rw [Codec.read, parsed]
        refine ⟨captures.dropLast.map parameter ++ [map.toValue], none,
          ⟨List.dropLast_concat, fun other fault => ⟨fun told => ?_, ?_⟩, fun some_ => ?_⟩, ?_⟩
        · cases told
        · rintro ⟨same, found⟩
          rw [only other same, sound] at found
          cases found
        · exact absurd rfl some_
        · intro sink
          have parsed : ({ codec with sink } : Codec).parse query = .ok map := parsed
          rw [decode_concat _ last, Codec.deserialize_of_parse parsed]
          rfl
    | error fault =>
        have found : (codec.read query).fault = some fault := by rw [Codec.read, parsed]
        refine ⟨captures.dropLast.map parameter ++ [Params.toValue []], some (query, fault),
          ⟨List.dropLast_concat, fun other fault' => ?_, fun _ => List.getLast?_concat⟩, ?_⟩
        · constructor
          · rintro ⟨rfl, rfl⟩
            exact ⟨last, found⟩
          · rintro ⟨same, found'⟩
            rw [only other same, found] at found'
            rw [only other same, Option.some.inj found']
        · intro sink
          have parsed : ({ codec with sink } : Codec).parse query = .error fault := parsed
          rw [decode_concat _ last, Codec.deserialize_of_fault parsed, Sink.settle]
          cases (sink.deliver query fault).1 <;> rfl
  · have plain (query : Text) : captures.getLast? ≠ some (some ('?' :: query)) :=
      fun last => queried ⟨query, last⟩
    refine ⟨captures.map parameter, none,
      ⟨List.map_dropLast.symm, fun query fault => ⟨fun told => ?_, fun faulty => ?_⟩, ?_⟩, ?_⟩
    · cases told
    · exact absurd faulty.1 (plain query)
    · exact fun some_ => absurd rfl some_
    · exact fun sink => decode_unqueried _ plain

end Fragment

namespace Router

open Fragment (Decodes)

variable {router : Router} {codec : Codec} {compiler : Template.Compiler}

/-- A router whose codec is made with another sink, or with none. -/
def reporting (router : Router) (onError : Option Sink) : Router :=
  { router with
    queries := router.queries.map fun support =>
      { support with
        codec := Codec.create support.codec.layout support.codec.settings onError } }

@[simp] theorem routes_reporting (router : Router) (onError : Option Sink) :
    (router.reporting onError).routes = router.routes := rfl

@[simp] theorem stripSlash_reporting (router : Router) (onError : Option Sink) :
    (router.reporting onError).stripSlash = router.stripSlash := rfl

/-- A table whose first route does not accept what its second one does. -/
def searchTable : Router :=
  (withQueries true (Codec.create .json) Template.standardHost).replay
    [.add { template := "files/*path".toList }, .add { template := "find/:what".toList }]

/-- A fragment whose query has an incomplete escape in its second pair. -/
def searchFragment : Text := "#/find/x?a=1&b=%".toList

/-- A sink that raises. -/
def downSink : Sink where
  call _ _ := (.error (.texted true "sink down".toList), [])

end Router

end FragmentRouting
