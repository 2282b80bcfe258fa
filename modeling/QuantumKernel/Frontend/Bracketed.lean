import QuantumKernel.Frontend.Basic
import QuantumKernel.Ir
/-! # Bracketed — the source between `BEGIN` and `END`

The front-end `toy2` completes the source when it normalizes it, and translates what it finds as it stands.
-/
namespace QuantumKernel
namespace Frontend

def bracket (source : Text) : Text := "BEGIN ".toList ++ source ++ " END".toList

def bracketed : Frontend Unit TextIr := stateless "toy2".toList bracket fun unit => pure (.ok ⟨unit.source⟩)

end Frontend
end QuantumKernel
