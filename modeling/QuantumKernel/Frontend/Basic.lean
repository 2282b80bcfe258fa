import QuantumKernel.CompileError
import QuantumKernel.Log
import QuantumKernel.Target
/-! # Frontend — how a source language plugs in

A front-end has a state of its own, a name that may depend on it, and two hooks.  `normalize` sees the staged source and
its target and leaves the source to translate; `translate` turns that into the front-end's representation or an error.
Both may change the state and leave records.
-/
namespace QuantumKernel

/-- One compilation as the hooks see it: the staged source and the target. -/
structure CompilationUnit where
  source : Text
  target : Target

/-- A source language, with states in `σ` and results in `α`. -/
structure Frontend (σ α : Type) where
  /-- What the front-end calls itself. -/
  name : σ → Text
  /-- The source to translate in place of the staged one. -/
  normalize : σ → CompilationUnit → Logged (Text × σ) := fun state unit => pure (unit.source, state)
  /-- The result of a compilation. -/
  translate : σ → CompilationUnit → Logged (Except CompileError α × σ)

namespace Frontend

/-- A front-end without a state: its name, what it makes of the source, and how it translates. -/
def stateless (name : Text) (normalize : Text → Text) (translate : CompilationUnit → Logged (Except CompileError α)) :
    Frontend Unit α where
  name _ := name
  normalize _ unit := pure (normalize unit.source, ())
  translate _ unit := do return (← translate unit, ())

end Frontend
end QuantumKernel
