import QuantumKernel.Frontend.Basic
import QuantumKernel.Ir
import QuantumKernel.Kernel.Reading
/-! # GateList — kernels of one gate a line

The front-end `gates` cleans every line and keeps it in place, so that errors point at the caller's lines, and then reads
the program.  An accepted kernel leaves a record of its size.
-/
namespace QuantumKernel
namespace Frontend

namespace GateList

def name : Text := "gates".toList

/-- The part of the program that the front-end's records name. -/
def origin : Text := "qfront::frontends::gates".toList

/-- The record of an accepted program's size. -/
def sizeText (p : Program) : Text :=
  name ++ ": ".toList ++ Text.decimal p.instructions.length ++ " instructions over ".toList
    ++ Text.decimal p.qubitsUsed.toNat ++ " qubits".toList

/-- The program of a clean source, with a record of its size. -/
def translate (unit : CompilationUnit) : Logged (Except CompileError Program) :=
  match Program.ofSource unit.source unit.target.qubits with
  | .error rejection => pure (.error (rejection.toError name unit.target))
  | .ok program => do
    Logged.record .debug origin (sizeText program)
    return .ok program

end GateList

def gateList : Frontend Unit Program := stateless GateList.name Kernel.clean GateList.translate

end Frontend
end QuantumKernel
