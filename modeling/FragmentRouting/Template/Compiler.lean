import FragmentRouting.Template.Narrowing

/-!
A compiler that remembers what it compiled. Each successful compilation is an object of its own,
known by its number; asking again for the same template gives the same object until the memory is
cleared. Failures are not remembered.
-/
namespace FragmentRouting.Template

/-- A compiled template as an object: the number counts the objects made before it. -/
structure Object where
  number : Nat
  compiled : Compiled
  deriving DecidableEq, Repr

structure Compiler where
  host : Host := standardHost
  shapes : Shapes := {}
  memory : OrderedMap Text Object := []
  made : Nat := 0
  hostCalls : Nat := 0

namespace Compiler

def compile (compiler : Compiler) (template : Text) :
    Except Fault Object × Compiler × List Notice :=
  match OrderedMap.find? template compiler.memory with
  | some object => (.ok object, compiler, [])
  | none =>
    let asked := { compiler with hostCalls := compiler.hostCalls + 1 }
    match compileFresh compiler.host compiler.shapes template with
    | (.error fault, notices) => (.error fault, asked, notices)
    | (.ok compiled, notices) =>
      let object : Object := ⟨compiler.made, compiled⟩
      (.ok object,
        { asked with
          memory := OrderedMap.insert template object compiler.memory
          made := compiler.made + 1 },
        notices)

def clear (compiler : Compiler) : Compiler := { compiler with memory := [] }

end Compiler

end FragmentRouting.Template
