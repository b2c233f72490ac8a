import FragmentRouting.Proofs.OrderedMap
import FragmentRouting.Template.Compiler

namespace FragmentRouting.Template.Compiler

/-- Whether all that a compiler holds is what its host makes of the templates. -/
def Faithful (compiler : Compiler) : Prop :=
  ∀ entry ∈ compiler.memory,
    (compileFresh compiler.host compiler.shapes entry.1).1 = .ok entry.2.compiled

variable {compiler : Compiler}

theorem faithful_of_empty (empty : compiler.memory = []) : compiler.Faithful := by
  intro entry member
  rw [empty] at member
  exact absurd member List.not_mem_nil

theorem faithful_clear (compiler : Compiler) : compiler.clear.Faithful := faithful_of_empty rfl

theorem host_compile (compiler : Compiler) (template : Text) :
    (compiler.compile template).2.1.host = compiler.host := by
  unfold compile
  split
  · rfl
  · split
    · rfl
    · rfl

theorem shapes_compile (compiler : Compiler) (template : Text) :
    (compiler.compile template).2.1.shapes = compiler.shapes := by
  unfold compile
  split
  · rfl
  · split
    · rfl
    · rfl

theorem Faithful.compile (faithful : compiler.Faithful) (template : Text) :
    (compiler.compile template).2.1.Faithful := by
  unfold Compiler.compile
  split
  · exact faithful
  · split
    · exact faithful
    next compiled notices fresh =>
        intro entry member
        rcases OrderedMap.mem_insert member with rfl | member
        · exact congrArg Prod.fst fresh
        · exact faithful entry member

/-- A memory makes no difference to what is compiled. -/
theorem Faithful.result (faithful : compiler.Faithful) (template : Text) :
    (compiler.compile template).1.map (·.compiled) =
      (compileFresh compiler.host compiler.shapes template).1 := by
  unfold Compiler.compile
  split
  next object held =>
      exact (faithful _ (OrderedMap.mem_of_find? held)).symm
  next =>
      split
      next fault notices fresh => rw [fresh]; rfl
      next compiled notices fresh => rw [fresh]; rfl

end FragmentRouting.Template.Compiler
