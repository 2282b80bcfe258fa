import QuantumKernel.Registry.Basic
import QuantumKernel.Text.Quoted
/-! # Display — a registry shown by its names

On one line, or with one name a line and each level indented by four.
-/
namespace QuantumKernel
namespace Registry

variable {ω : Type}

/-- The registry's names, quoted, on one line. -/
def shown (r : Registry ω) : Text :=
  "FrontendRegistry \x7b names: [".toList ++ (", ".toList).intercalate (r.names.map Text.quoted)
    ++ "] \x7d".toList

/-- Items one a line, as they stand between brackets. -/
def listed : List Text → Text
  | [] => []
  | items => ['\n'] ++ items.flatMap (fun item => "        ".toList ++ item ++ ",\n".toList) ++ "    ".toList

/-- The registry's names, quoted, one a line. -/
def shownPretty (r : Registry ω) : Text :=
  "FrontendRegistry \x7b\n    names: [".toList ++ listed (r.names.map Text.quoted) ++ "],\n\x7d".toList

end Registry
end QuantumKernel
