import FragmentRouting.Proofs.Template.Memory

/-!
Runs of a compiler with a memory. The memory makes no difference to what is compiled. It decides
when the host is asked and which objects are the same, and the requests alone say how: the host is
asked for a template unless the template was compiled with success since the memory was last
cleared, and two compilations of a template give one object exactly if the memory was not cleared
between them.
-/
namespace FragmentRouting.Template

open OrderedMap (find?)

/-- What a compiler is asked to do. -/
inductive Request where
  | compile (template : Text)
  | clear
  deriving DecidableEq, Repr

namespace Compiler

/-- The compiler after one request, whether it succeeds or not. -/
def serve (compiler : Compiler) : Request → Compiler
  | .compile template => (compiler.compile template).2.1
  | .clear => compiler.clear

def replay (compiler : Compiler) (requests : List Request) : Compiler :=
  requests.foldl serve compiler

/-- Whether, among requests to a compiler, a template was compiled with success after the memory was
last cleared. -/
def Succeeded (compiler : Compiler) (requests : List Request) (template : Text) : Prop :=
  ∃ before after, requests = before ++ .compile template :: after ∧ .clear ∉ after ∧
    ((compiler.replay before).compile template).1.isOk = true

variable {compiler : Compiler} {template : Text}

theorem replay_append (compiler : Compiler) (before after : List Request) :
    compiler.replay (before ++ after) = (compiler.replay before).replay after :=
  List.foldl_append

/-- All that compiling a template can do: give the object that is held, or ask the host and either
fail or make an object and hold it. -/
theorem compile_cases (compiler : Compiler) (template : Text) :
    (∃ object, find? template compiler.memory = some object ∧
      (compiler.compile template).1 = .ok object ∧
      (compiler.compile template).2.1 = compiler) ∨
    (∃ fault, find? template compiler.memory = none ∧
      (compiler.compile template).1 = .error fault ∧
      (compiler.compile template).2.1 =
        { compiler with hostCalls := compiler.hostCalls + 1 }) ∨
    ∃ compiled, find? template compiler.memory = none ∧
      (compiler.compile template).1 = .ok ⟨compiler.made, compiled⟩ ∧
      (compiler.compile template).2.1 =
        { compiler with
          hostCalls := compiler.hostCalls + 1
          memory := OrderedMap.insert template ⟨compiler.made, compiled⟩ compiler.memory
          made := compiler.made + 1 } := by
  rw [Compiler.compile]
  cases find? template compiler.memory with
  | some object => exact .inl ⟨object, rfl, rfl, rfl⟩
  | none =>
      rcases compileFresh compiler.host compiler.shapes template with ⟨result, notices⟩
      cases result with
      | error fault => exact .inr (.inl ⟨fault, rfl, rfl, rfl⟩)
      | ok compiled => exact .inr (.inr ⟨compiled, rfl, rfl, rfl⟩)

theorem find?_compile {object : Object} (compiled : (compiler.compile template).1 = .ok object) :
    find? template (compiler.compile template).2.1.memory = some object := by
  rcases compiler.compile_cases template with ⟨held, found, given, after⟩ |
    ⟨fault, _, given, _⟩ | ⟨fresh, _, given, after⟩
  · rw [after, found, Except.ok.inj (given.symm.trans compiled)]
  · rw [given] at compiled
    cases compiled
  · rw [after, ← Except.ok.inj (given.symm.trans compiled)]
    exact OrderedMap.find?_insert _ _ _

theorem compile_of_find? {object : Object} (held : find? template compiler.memory = some object) :
    (compiler.compile template).1 = .ok object ∧ (compiler.compile template).2.1 = compiler := by
  rcases compiler.compile_cases template with ⟨other, found, given, after⟩ |
    ⟨_, missed, _⟩ | ⟨_, missed, _⟩
  · rw [Option.some.inj (held.symm.trans found)]
    exact ⟨given, after⟩
  · rw [held] at missed
    cases missed
  · rw [held] at missed
    cases missed

theorem find?_compile_of_find? {object : Object}
    (held : find? template compiler.memory = some object) (other : Text) :
    find? template (compiler.compile other).2.1.memory = some object := by
  rcases compiler.compile_cases other with ⟨_, _, _, after⟩ | ⟨_, _, _, after⟩ |
    ⟨_, missed, _, after⟩
  · rw [after, held]
  · rw [after]
    exact held
  · have differs : template ≠ other := by
      rintro rfl
      rw [held] at missed
      cases missed
    rw [after, ← held]
    exact OrderedMap.find?_insert_of_ne differs _ _

/-- How the objects of a compiler are numbered: those that it holds were made after the first
`start` ones, and each before those to come. -/
structure Numbered (start : Nat) (compiler : Compiler) : Prop where
  start_le : start ≤ compiler.made
  held : ∀ entry ∈ compiler.memory, start ≤ entry.2.number ∧ entry.2.number < compiler.made

theorem numbered_clear (compiler : Compiler) : compiler.clear.Numbered compiler.made :=
  ⟨Nat.le_refl _, fun _ member => absurd member List.not_mem_nil⟩

theorem Numbered.serve {start : Nat} (numbered : compiler.Numbered start) (request : Request) :
    (compiler.serve request).Numbered start := by
  cases request with
  | clear => exact ⟨numbered.start_le, fun _ member => absurd member List.not_mem_nil⟩
  | compile template =>
      rw [Compiler.serve]
      rcases compiler.compile_cases template with ⟨_, _, _, after⟩ | ⟨_, _, _, after⟩ |
        ⟨compiled, _, _, after⟩
      · rw [after]
        exact numbered
      · rw [after]
        exact ⟨numbered.start_le, numbered.held⟩
      · rw [after]
        refine ⟨Nat.le_succ_of_le numbered.start_le, fun entry member => ?_⟩
        rcases OrderedMap.mem_insert member with rfl | member
        · exact ⟨numbered.start_le, Nat.lt_succ_self _⟩
        · obtain ⟨above, below⟩ := numbered.held entry member
          exact ⟨above, Nat.lt_succ_of_lt below⟩

theorem Numbered.of_compile {start : Nat} (numbered : compiler.Numbered start) {object : Object}
    (compiled : (compiler.compile template).1 = .ok object) :
    start ≤ object.number ∧ object.number < (compiler.compile template).2.1.made :=
  (numbered.serve (.compile template)).held _ (OrderedMap.mem_of_find? (find?_compile compiled))

theorem Numbered.replay {start : Nat} (numbered : compiler.Numbered start)
    (requests : List Request) : (compiler.replay requests).Numbered start := by
  induction requests generalizing compiler with
  | nil => exact numbered
  | cons request requests ih => exact ih (numbered.serve request)

theorem made_le_replay (compiler : Compiler) (requests : List Request) :
    compiler.made ≤ (compiler.replay requests).made := by
  induction requests generalizing compiler with
  | nil => exact Nat.le_refl _
  | cons request requests ih =>
      refine Nat.le_trans ?_ (ih (compiler.serve request))
      cases request with
      | clear => exact Nat.le_refl _
      | compile template =>
          rw [Compiler.serve]
          rcases compiler.compile_cases template with ⟨_, _, _, after⟩ | ⟨_, _, _, after⟩ |
            ⟨_, _, _, after⟩
          · rw [after]
          · rw [after]
          · rw [after]
            exact Nat.le_succ _

theorem find?_replay {object : Object} (held : find? template compiler.memory = some object)
    {requests : List Request} (kept : .clear ∉ requests) :
    find? template (compiler.replay requests).memory = some object := by
  induction requests generalizing compiler with
  | nil => exact held
  | cons request requests ih =>
      rw [List.mem_cons, not_or] at kept
      cases request with
      | clear => exact absurd rfl kept.1
      | compile other => exact ih (find?_compile_of_find? held other) kept.2

theorem Faithful.replay (faithful : compiler.Faithful) (requests : List Request) :
    (compiler.replay requests).host = compiler.host ∧
      (compiler.replay requests).shapes = compiler.shapes ∧
      (compiler.replay requests).Faithful := by
  induction requests generalizing compiler with
  | nil => exact ⟨rfl, rfl, faithful⟩
  | cons request requests ih =>
      cases request with
      | clear => exact ih compiler.faithful_clear
      | compile template =>
          obtain ⟨host, shapes, after⟩ := ih (faithful.compile template)
          exact ⟨host.trans (compiler.host_compile template),
            shapes.trans (compiler.shapes_compile template), after⟩

/-- A template is held after some requests exactly if it was compiled with success since the memory
was last cleared. -/
theorem isSome_find?_replay_iff (empty : compiler.memory = []) (requests : List Request) :
    (find? template (compiler.replay requests).memory).isSome = true ↔
      compiler.Succeeded requests template := by
  constructor
  · -- The last request either brought the template in or left it there.
    induction requests using List.reverseRecOn with
    | nil =>
        intro held
        rw [replay, List.foldl_nil, empty] at held
        cases held
    | append_singleton requests request ih =>
        intro held
        rw [replay_append] at held
        cases request with
        | clear => cases held
        | compile other =>
            have earlier (held : (find? template (compiler.replay requests).memory).isSome = true) :
                compiler.Succeeded (requests ++ [.compile other]) template := by
              obtain ⟨before, after, split, kept, succeeded⟩ := ih held
              refine ⟨before, after ++ [.compile other], ?_, ?_, succeeded⟩
              · rw [split, List.append_assoc, List.cons_append]
              · rw [List.mem_append, List.mem_singleton, not_or]
                exact ⟨kept, nofun⟩
            change (find? template
              ((compiler.replay requests).compile other).2.1.memory).isSome = true at held
            rcases (compiler.replay requests).compile_cases other with ⟨_, _, _, after⟩ |
              ⟨_, _, _, after⟩ | ⟨compiled, _, given, after⟩
            · rw [after] at held
              exact earlier held
            · rw [after] at held
              exact earlier held
            · by_cases same : template = other
              · rw [same]
                exact ⟨requests, [], rfl, List.not_mem_nil, by rw [given]; rfl⟩
              · rw [after, OrderedMap.find?_insert_of_ne same] at held
                exact earlier held
  · rintro ⟨before, after, rfl, kept, succeeded⟩
    cases compiled : ((compiler.replay before).compile template).1 with
    | error fault =>
        rw [compiled] at succeeded
        cases succeeded
    | ok object =>
        have held := find?_replay (find?_compile compiled) kept
        rw [replay_append]
        exact Option.isSome_iff_exists.mpr ⟨object, held⟩

/-- The host is asked for a template that is not held, and for no other one. -/
theorem hostCalls_compile (compiler : Compiler) (template : Text) :
    (compiler.compile template).2.1.hostCalls =
      compiler.hostCalls + if (find? template compiler.memory).isSome then 0 else 1 := by
  rcases compiler.compile_cases template with ⟨_, held, _, after⟩ | ⟨_, missed, _, after⟩ |
    ⟨_, missed, _, after⟩
  · rw [after, held]
    rfl
  · rw [after, missed]
    rfl
  · rw [after, missed]
    rfl

theorem memory_of_error {fault : Fault} (failed : (compiler.compile template).1 = .error fault) :
    find? template compiler.memory = none ∧
      (compiler.compile template).2.1.memory = compiler.memory := by
  rcases compiler.compile_cases template with ⟨_, _, given, _⟩ | ⟨_, missed, _, after⟩ |
    ⟨_, _, given, _⟩
  · rw [given] at failed
    cases failed
  · rw [after]
    exact ⟨missed, rfl⟩
  · rw [given] at failed
    cases failed

/-- Two compilations of one template give the same object exactly if the memory was not cleared
between them. -/
theorem number_eq_iff {start : Nat} (numbered : compiler.Numbered start) {first second : Object}
    {between : List Request} (compiled : (compiler.compile template).1 = .ok first)
    (again : (((compiler.compile template).2.1.replay between).compile template).1 = .ok second) :
    first.number = second.number ↔ .clear ∉ between := by
  constructor
  · intro same cleared
    obtain ⟨before, after, rfl⟩ := List.append_of_mem cleared
    let met := (compiler.compile template).2.1.replay before
    have cut : (compiler.compile template).2.1.replay (before ++ .clear :: after) =
        met.clear.replay after := replay_append _ _ _
    rw [cut] at again
    -- What was numbered before the memory was cleared is below what is numbered after it.
    have older := (numbered.of_compile compiled).2
    have newer := ((numbered_clear met).replay after).of_compile again
    have ordered : (compiler.compile template).2.1.made ≤ met.made := made_le_replay _ before
    omega
  · intro kept
    have held := find?_replay (find?_compile compiled) kept
    rw [Except.ok.inj ((compile_of_find? held).1.symm.trans again)]

/-- After any requests a template compiles to what a fresh compiler makes of it, or fails as it
does. The host is asked unless the template was compiled with success since the memory was last
cleared, and a failure is not held. Two compilations of a template give the same object exactly if
the memory was not cleared between them. -/
theorem compile_after_requests (host : Host) (shapes : Shapes) (requests : List Request)
    (template : Text) :
    let fresh : Compiler := { host, shapes }
    let compiler := fresh.replay requests
    let outcome := compiler.compile template
    outcome.1.map Object.compiled = (fresh.compile template).1.map Object.compiled ∧
      (fresh.Succeeded requests template → outcome.2.1.hostCalls = compiler.hostCalls) ∧
      (¬ fresh.Succeeded requests template →
        outcome.2.1.hostCalls = compiler.hostCalls + 1) ∧
      (∀ fault, outcome.1 = .error fault → ¬ fresh.Succeeded requests template ∧
        outcome.2.1.memory = compiler.memory) ∧
      ∀ before between first second, requests = before ++ .compile template :: between →
        ((fresh.replay before).compile template).1 = .ok first → outcome.1 = .ok second →
          first.compiled = second.compiled ∧
            (first.number = second.number ↔ .clear ∉ between) := by
  intro fresh compiler outcome
  have faithful : fresh.Faithful := faithful_of_empty rfl
  -- What is held is what a fresh compilation gives, so no request makes a difference to results.
  have agrees (requests : List Request) :
      ((fresh.replay requests).compile template).1.map Object.compiled =
        (compileFresh host shapes template).1 := by
    obtain ⟨hosted, shaped, kept⟩ := faithful.replay requests
    have result := kept.result template
    rw [hosted, shaped] at result
    exact result
  have held : (find? template compiler.memory).isSome = true ↔
      fresh.Succeeded requests template := isSome_find?_replay_iff rfl requests
  have calls : outcome.2.1.hostCalls = _ := compiler.hostCalls_compile template
  refine ⟨(agrees requests).trans (agrees []).symm, ?_, ?_, ?_, ?_⟩
  · intro succeeded
    rw [calls, if_pos (held.mpr succeeded), Nat.add_zero]
  · intro missed
    rw [calls, if_neg fun found => missed (held.mp found)]
  · intro fault failed
    obtain ⟨missed, kept⟩ := memory_of_error failed
    refine ⟨fun succeeded => ?_, kept⟩
    have found := held.mpr succeeded
    rw [missed] at found
    cases found
  · intro before between first second split compiled again
    have numbered : (fresh.replay before).Numbered 0 :=
      Numbered.replay ⟨Nat.le_refl 0, fun _ member => absurd member List.not_mem_nil⟩ before
    have reached : compiler =
        ((fresh.replay before).compile template).2.1.replay between := by
      change fresh.replay requests = _
      rw [split, replay_append]
      rfl
    refine ⟨?_, number_eq_iff numbered compiled ?_⟩
    · have one := agrees before
      have two := agrees requests
      have again : ((fresh.replay requests).compile template).1 = .ok second := again
      rw [compiled] at one
      rw [again] at two
      exact Except.ok.inj (one.trans two.symm)
    · rw [← reached]
      exact again

theorem compile_after_requests_page :
    let fresh : Compiler := { host := standardHost, shapes := {} }
    let page := "page/:id".toList
    let stray := "page)".toList
    ∃ first second third : Object,
      (fresh.compile page).1 = .ok first ∧
        ((fresh.replay [.compile page, .compile stray]).compile page).1 = .ok second ∧
        ((fresh.replay [.compile page, .clear, .compile stray]).compile page).1 = .ok third ∧
        (fresh.compile stray).1.isOk = false ∧
        first.compiled = second.compiled ∧ first.number = second.number ∧
        first.compiled = third.compiled ∧ first.number ≠ third.number := by
  intro fresh page stray
  have given (requests : List Request)
      (succeeds : ((fresh.replay requests).compile page).1.isOk = true) :
      ∃ object, ((fresh.replay requests).compile page).1 = .ok object := by
    cases compiled : ((fresh.replay requests).compile page).1 with
    | error fault =>
        rw [compiled] at succeeds
        cases succeeds
    | ok object => exact ⟨object, rfl⟩
  obtain ⟨first, here⟩ := given [] (by decide +kernel)
  obtain ⟨second, again⟩ := given [.compile page, .compile stray] (by decide +kernel)
  obtain ⟨third, afresh⟩ := given [.compile page, .clear, .compile stray] (by decide +kernel)
  obtain ⟨_, _, _, _, held⟩ :=
    compile_after_requests standardHost {} [.compile page, .compile stray] page
  obtain ⟨_, _, _, _, cleared⟩ :=
    compile_after_requests standardHost {} [.compile page, .clear, .compile stray] page
  obtain ⟨same, number⟩ := held [] [.compile stray] first second rfl here again
  obtain ⟨same', number'⟩ := cleared [] [.clear, .compile stray] first third rfl here afresh
  refine ⟨first, second, third, here, again, afresh, ?_, same, number.mpr ?_, same',
    fun equal => ?_⟩
  · decide +kernel
  · decide
  · exact number'.mp equal List.mem_cons_self

end Compiler

end FragmentRouting.Template
