import QuantumKernel.Kernel.Fault
import QuantumKernel.Kernel.Line
/-! # Reading — from clean lines to a program

A line is read token by token: the gate first, then the operands from left to right, and their number last, so the fault
reported is the first in this order.  A program is read line by line; empty lines are counted and skipped, and the first
faulty line ends the reading.  Only a program that was read is compared with the target's capacity.
-/
namespace QuantumKernel

/-- The qubits that operands name, given those already named on the line; none may be named twice. -/
def Instruction.readOperands (named : List Qubit) : List Text → Except Fault (List Qubit)
  | [] => .ok []
  | token :: rest =>
    match Qubit.ofToken? token with
    | none => .error (.invalidOperand token)
    | some qubit =>
      if qubit ∈ named then .error (.repeatedQubit qubit)
      else (readOperands (qubit :: named) rest).map (qubit :: ·)

/-- The instruction of a gate with these operands. -/
def Instruction.ofOperands (gate : Gate) (operands : List Text) : Except Fault Instruction :=
  match readOperands [] operands with
  | .error fault => .error fault
  | .ok qubits => if qubits.length = gate.arity then .ok ⟨gate, qubits⟩ else .error (.operandCount gate qubits.length)

/-- The instruction on a line.  The gate's name is the first token; a line without tokens has the empty name. -/
def Instruction.ofLine (line : Text) : Except Fault Instruction :=
  let name := (Kernel.tokens line).headD []
  match Gate.ofMnemonic? name with
  | none => .error (.unknownGate name)
  | some gate => ofOperands gate (Kernel.tokens line).tail

namespace Program

/-- A program continued by the instructions on lines, of which the first has the given number. -/
def extend (p : Program) (number : Nat) : List Text → Except Rejection Program
  | [] => .ok p
  | line :: rest =>
    if line = [] then p.extend (number + 1) rest
    else match Instruction.ofLine line with
      | .error fault => .error (.badLine number line fault)
      | .ok instruction => (p.push instruction).extend (number + 1) rest

/-- The program on lines; there has to be an instruction. -/
def ofLines (lines : List Text) : Except Rejection Program :=
  match empty.extend 1 lines with
  | .error rejection => .error rejection
  | .ok p => if p.instructions = [] then .error .noInstructions else .ok p

/-- A program that fits the number of qubits provided, if one is declared. -/
def within (capacity : Option UInt64) (p : Program) : Except Rejection Program :=
  match capacity with
  | none => .ok p
  | some provided => if p.qubitsUsed > provided then .error (.tooManyQubits p.qubitsUsed provided) else .ok p

/-- The program of a clean source, for a target with this capacity. -/
def ofSource (source : Text) (capacity : Option UInt64) : Except Rejection Program :=
  (ofLines (Text.lines source)).bind (within capacity)

end Program
end QuantumKernel
