import QuantumKernel.Text.Basic
/-! # Gate — the gates, their mnemonics and how many qubits they act on

A gate is looked up by any of its spellings, and the case of ASCII letters does not matter.  `ofMnemonic?_mnemonic`: a
gate's own mnemonic finds it.
-/
namespace QuantumKernel

inductive Gate
  | h | x | y | z | s | t | cnot | cz | swap | measure
  deriving DecidableEq

namespace Gate

def mnemonic : Gate → Text
  | h => "H".toList
  | x => "X".toList
  | y => "Y".toList
  | z => "Z".toList
  | s => "S".toList
  | t => "T".toList
  | cnot => "CNOT".toList
  | cz => "CZ".toList
  | swap => "SWAP".toList
  | measure => "MEASURE".toList

def arity : Gate → Nat
  | cnot | cz | swap => 2
  | _ => 1

def all : List Gate := [h, x, y, z, s, t, cnot, cz, swap, measure]

/-- Every name that a gate may be read by, in capitals: its mnemonic, and the short name of the controlled not. -/
def spellings : List (Text × Gate) := all.map (fun g => (g.mnemonic, g)) ++ [("CX".toList, cnot)]

/-- The gate that a name stands for; only ASCII letters are folded. -/
def ofMnemonic? (name : Text) : Option Gate := spellings.lookup (name.map Char.toUpper)

/-- **A gate's own mnemonic finds it.** -/
theorem ofMnemonic?_mnemonic (g : Gate) : ofMnemonic? g.mnemonic = some g := by
  cases g <;> decide

end Gate
end QuantumKernel
