import QuantumKernel.Text.Basic
/-! # Target — the accelerator a kernel is compiled for

A target has a name and may declare how many qubits it provides; one that declares nothing sets no limit.
-/
namespace QuantumKernel

/-- An accelerator: its name, and how many qubits it provides if it says so. -/
structure Target where
  name : Text
  qubits : Option UInt64 := none
  deriving DecidableEq

namespace Target

def withQubits (t : Target) (n : UInt64) : Target := { t with qubits := some n }

end Target
end QuantumKernel
