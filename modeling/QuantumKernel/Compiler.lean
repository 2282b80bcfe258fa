import QuantumKernel.Pipeline.Basic
/-! # Compiler — a pipeline whose front-end is not known

A compiler hides which front-end it runs, what states that has and what it produces.  What is left is its name and
compilation to a representation of any kind.
-/
namespace QuantumKernel

/-- A pipeline of any front-end. -/
structure Compiler where
  {σ : Type}
  {α : Type}
  [kind : ToIr α]
  pipeline : Pipeline σ α

namespace Compiler

def name (c : Compiler) : Text := c.pipeline.name

instance (c : Compiler) : ToIr c.α := c.kind

/-- One compilation: its result, and the compiler after it. -/
def compile (c : Compiler) (source : Text) (target : Target) : Logged (Except CompileError Ir × Compiler) :=
  let ran := c.pipeline.compile source target
  ⟨(ran.value.1, ⟨ran.value.2⟩), ran.log⟩

end Compiler

def Frontend.compiler [ToIr α] (frontend : Frontend Unit α) : Compiler := ⟨frontend.pipeline⟩

end QuantumKernel
