import QuantumKernel.Text.CaseTable
import QuantumKernel.Text.Basic
/-! # Uppercase — full uppercase, character by character

The uppercase form of a text is the concatenation of the uppercase forms of its characters (`uppercase_append`): an
expansion where the character has one, else the character that its run leads to, else the character itself.
-/
namespace QuantumKernel
namespace Text

def CaseRun.covers (r : CaseRun) (n : Nat) : Bool :=
  decide (r.first ≤ n) && decide (n ≤ r.last) && (n - r.first) % r.step == 0

def CaseRun.apply (r : CaseRun) (n : Nat) : Nat := (n + r.shift).toNat

/-- The code point of the uppercase form of one that is not expanded. -/
def upperCodePoint (n : Nat) : Nat :=
  match caseRuns.find? (·.covers n) with
  | some r => r.apply n
  | none => n

/-- The code points of the uppercase form of a code point. -/
def upperCodePoints (n : Nat) : List Nat := (caseExpansions.lookup n).getD [upperCodePoint n]

def upperChar (c : Char) : Text := (upperCodePoints c.toNat).map Char.ofNat

def uppercase (t : Text) : Text := t.flatMap upperChar

@[simp] theorem uppercase_append (a b : Text) : uppercase (a ++ b) = uppercase a ++ uppercase b :=
  List.flatMap_append

end Text
end QuantumKernel
