import QuantumKernel.CompileError
import QuantumKernel.Kernel.Program
import QuantumKernel.Target
/-! # Fault — what can be wrong with a line, and why a kernel is rejected

A line has at most one fault that is reported, its first.  A kernel is rejected for its first faulty line, for having no
instruction at all, or for spanning more qubits than its target provides.
-/
namespace QuantumKernel

/-- What is wrong with a line. -/
inductive Fault
  | unknownGate (token : Text)
  | invalidOperand (token : Text)
  | repeatedQubit (qubit : Qubit)
  | operandCount (gate : Gate) (found : Nat)
  deriving DecidableEq

def Fault.reason : Fault → Text
  | .unknownGate token => "unknown gate `".toList ++ token ++ "`".toList
  | .invalidOperand token => "invalid qubit operand `".toList ++ token ++ "`".toList
  | .repeatedQubit qubit => "qubit ".toList ++ qubit.text ++ " used twice".toList
  | .operandCount gate found =>
    gate.mnemonic ++ " takes ".toList ++ Text.decimal gate.arity ++ " operand(s), found ".toList ++ Text.decimal found

/-- Why a kernel is rejected. -/
inductive Rejection
  /-- A line, counted from 1, has a fault. -/
  | badLine (number : Nat) (line : Text) (fault : Fault)
  | noInstructions
  /-- The target provides fewer qubits than the program spans. -/
  | tooManyQubits (used capacity : UInt64)
  deriving DecidableEq

/-- The error that a front-end reports for a rejected kernel. -/
def Rejection.toError (frontend : Text) (target : Target) : Rejection → CompileError
  | .badLine number line fault => (CompileError.compilation frontend line none fault.reason).atLine number
  | .noInstructions => .compilation frontend [] none "kernel has no instructions".toList
  | .tooManyQubits used capacity =>
    .unsupportedTarget frontend target.name
      ("kernel uses ".toList ++ Text.decimal used.toNat ++ " qubits but the target provides ".toList
        ++ Text.decimal capacity.toNat)

end QuantumKernel
