import QuantumKernel.Frontend.Basic
import QuantumKernel.Ir
import QuantumKernel.Text.Uppercase
/-! # Uppercase — the source in capitals

The front-end `toy` translates every source to its full uppercase form.
-/
namespace QuantumKernel
namespace Frontend

def uppercase : Frontend Unit TextIr :=
  stateless "toy".toList id fun unit => pure (.ok ⟨Text.uppercase unit.source⟩)

end Frontend
end QuantumKernel
