import QuantumKernel.Frontend.Bracketed
import QuantumKernel.Frontend.GateList
import QuantumKernel.Frontend.Unfinished
import QuantumKernel.Frontend.Uppercase
import QuantumKernel.Registry.Basic
/-! # Builtin — the front-ends that come with the program

Four names: `toy`, `toy2`, `broken` and `gates`, each with a front-end that calls itself the same.
-/
namespace QuantumKernel

namespace Registry

/-- The front-ends that come with the program, by name. -/
def builtins : List (Text × Compiler) :=
  [("toy".toList, Frontend.uppercase.compiler), ("toy2".toList, Frontend.bracketed.compiler),
   ("broken".toList, (Frontend.unfinished "broken".toList).compiler),
   (Frontend.GateList.name, Frontend.gateList.compiler)]

def withBuiltins : Registry ω :=
  builtins.foldl (fun r entry => (r.register entry.1 (Factory.of entry.2)).value) empty

end Registry
end QuantumKernel
