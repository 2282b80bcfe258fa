import QuantumKernel.Kernel.Program
/-! # Ir — what a compilation produces

Two kinds of intermediate representation: one text, or a program of gates.  Each front-end produces one kind; `ToIr` puts
it among the others.
-/
namespace QuantumKernel

structure TextIr where
  body : Text
  deriving DecidableEq

def TextIr.text (ir : TextIr) : Text := ir.body

inductive Ir
  | text (ir : TextIr)
  | gates (program : Program)
  deriving DecidableEq

def Ir.toText : Ir → Text
  | .text ir => ir.text
  | .gates program => program.text

/-- The kinds of intermediate representation. -/
class ToIr (α : Type) where
  /-- A representation of one kind among those of every kind. -/
  toIr : α → Ir

instance : ToIr TextIr := ⟨Ir.text⟩

instance : ToIr Program := ⟨Ir.gates⟩

end QuantumKernel
