import QuantumKernel.Frontend.Basic
import QuantumKernel.Ir
/-! # Unfinished — a front-end that cannot translate yet

Every compilation is a defect, so that a front-end in the making shows itself where it is used.
-/
namespace QuantumKernel
namespace Frontend

def unfinished (name : Text) : Frontend Unit TextIr :=
  stateless name id fun _ => pure (.error (.missingTranslate name))

end Frontend
end QuantumKernel
