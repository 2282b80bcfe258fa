import QuantumKernel.Kernel.Gate
import QuantumKernel.Kernel.Qubit
import QuantumKernel.Text.Lines
/-! # Program — instructions in order, and how many qubits they span

An instruction is a gate and the qubits it acts on; its text is the mnemonic and the indices, with a space before each
index.  A program's text has one instruction a line.  `Program.push` keeps the count of qubits at one past the largest
index.
-/
namespace QuantumKernel

structure Instruction where
  gate : Gate
  qubits : List Qubit
  deriving DecidableEq

/-- The mnemonic, then each index after a space. -/
def Instruction.text (i : Instruction) : Text := i.gate.mnemonic ++ i.qubits.flatMap fun q => ' ' :: q.text

/-- Instructions in order, and how many qubits they span. -/
structure Program where
  instructions : List Instruction := []
  qubitsUsed : UInt64 := 0
  deriving DecidableEq

namespace Program

def empty : Program := {}

/-- One past the largest index of the list, or the count so far if that is more. -/
def spanWith (used : UInt64) (qubits : List Qubit) : UInt64 :=
  match qubits.max? with
  | some largest => max used (largest + 1)
  | none => used

/-- A program with one more instruction at its end. -/
def push (p : Program) (i : Instruction) : Program :=
  ⟨p.instructions ++ [i], spanWith p.qubitsUsed i.qubits⟩

/-- One instruction a line, without a line feed at the end. -/
def text (p : Program) : Text := Text.unlines (p.instructions.map Instruction.text)

@[simp] theorem instructions_empty : empty.instructions = [] := rfl

@[simp] theorem qubitsUsed_empty : empty.qubitsUsed = 0 := rfl

@[simp] theorem instructions_push (p : Program) (i : Instruction) :
    (p.push i).instructions = p.instructions ++ [i] := rfl

@[simp] theorem qubitsUsed_push (p : Program) (i : Instruction) :
    (p.push i).qubitsUsed = spanWith p.qubitsUsed i.qubits := rfl

end Program
end QuantumKernel
