import FragmentRouting.Proofs.Except
import FragmentRouting.Proofs.Template.Memory
import FragmentRouting.Router.Basic

namespace FragmentRouting

/-- What is given of a route when it is added. -/
structure Registration where
  template : Text
  handler : Option Handler := none
  name : Text := []
  priority : Int := 0
  metadata : Params := []

def Registration.route (entry : Registration) (matcher : Matcher) : Route where
  template := entry.template
  handler := entry.handler
  name := entry.name
  priority := entry.priority
  metadata := entry.metadata
  matcher := matcher

/-- An operation that may change a router. -/
inductive Command where
  | add (entry : Registration)
  | remove (name : Text)
  | compile (template : Text)
  | forget

namespace Router

def step (router : Router) : Command → Router
  | .add entry => (router.add entry.template entry.route).2.1
  | .remove name => (router.remove name).2
  | .compile template => (router.compile template).2.1
  | .forget =>
    { router with
      queries := router.queries.map fun support =>
        { support with compiler := support.compiler.clear } }

def replay (router : Router) (commands : List Command) : Router := commands.foldl step router

/-- Whether a route holds the matcher that a host's template compiles to. -/
def CompiledBy (host : Template.Host) (route : Route) : Prop :=
  ∃ compiled, (Template.compileFresh host {} route.template).1 = .ok compiled ∧
    route.matcher = compiled.matcher

/-- What holds throughout a run: the settings stay, the compiler's memory is faithful, and so is the
table. -/
structure Sound (stripSlash : Bool) (codec : Codec) (host : Template.Host) (router : Router) :
    Prop where
  strips : router.stripSlash = stripSlash
  support : ∃ compiler : Template.Compiler, router.queries = some ⟨codec, compiler⟩ ∧
    compiler.host = host ∧ compiler.shapes = {} ∧ compiler.Faithful
  routes : ∀ route ∈ router.routes, CompiledBy host route

variable {stripSlash : Bool} {codec : Codec} {host : Template.Host} {router : Router}

theorem sound_withQueries : (withQueries stripSlash codec host).Sound stripSlash codec host where
  strips := rfl
  support := ⟨{ host }, rfl, rfl, rfl, Template.Compiler.faithful_of_empty rfl⟩
  routes := nofun

theorem mem_place {route other : Route} {routes : List Route} (h : other ∈ place route routes) :
    other = route ∨ other ∈ routes := by
  rcases List.mem_append.mp h with before | member
  · exact .inr ((List.takeWhile_sublist _).subset before)
  · rcases List.mem_cons.mp member with here | behind
    · exact .inl here
    · exact .inr ((List.dropWhile_sublist _).subset behind)

theorem Sound.compile (sound : router.Sound stripSlash codec host) (template : Text) :
    (router.compile template).1 = (Template.compileFresh host {} template).1 ∧
      (router.compile template).2.1.Sound stripSlash codec host := by
  obtain ⟨compiler, queries, hosted, shaped, faithful⟩ := sound.support
  have result := faithful.result template
  rw [hosted, shaped] at result
  unfold Router.compile
  rw [queries]
  refine ⟨result, sound.strips, ⟨_, rfl, ?_, ?_, faithful.compile template⟩, sound.routes⟩
  · exact (compiler.host_compile template).trans hosted
  · exact (compiler.shapes_compile template).trans shaped

theorem Sound.add (sound : router.Sound stripSlash codec host) (entry : Registration) :
    (router.add entry.template entry.route).2.1.Sound stripSlash codec host := by
  obtain ⟨fresh, after⟩ := sound.compile entry.template
  unfold Router.add Router.matcherOf
  generalize router.compile entry.template = outcome at fresh after ⊢
  obtain ⟨result, compiled, notices⟩ := outcome
  cases result with
  | error fault => exact after
  | ok object =>
      refine ⟨after.strips, after.support, ?_⟩
      intro route member
      rcases mem_place member with rfl | member
      · exact ⟨object, fresh.symm, rfl⟩
      · exact after.routes route member

theorem Sound.remove (sound : router.Sound stripSlash codec host) (name : Text) :
    (router.remove name).2.Sound stripSlash codec host where
  strips := sound.strips
  support := sound.support
  routes := fun route member => sound.routes route (List.eraseP_sublist.subset member)

theorem Sound.step (sound : router.Sound stripSlash codec host) (command : Command) :
    (router.step command).Sound stripSlash codec host := by
  cases command with
  | add entry => exact sound.add entry
  | remove name => exact sound.remove name
  | compile template => exact (sound.compile template).2
  | forget =>
      obtain ⟨compiler, queries, hosted, shaped, _⟩ := sound.support
      refine ⟨sound.strips, ⟨compiler.clear, ?_, hosted, shaped, ?_⟩, sound.routes⟩
      · rw [Router.step, queries]
        rfl
      · exact compiler.faithful_clear

theorem Sound.replay (sound : router.Sound stripSlash codec host) (commands : List Command) :
    (router.replay commands).Sound stripSlash codec host := by
  induction commands generalizing router with
  | nil => exact sound
  | cons command commands ih => exact ih (sound.step command)

end Router

end FragmentRouting
