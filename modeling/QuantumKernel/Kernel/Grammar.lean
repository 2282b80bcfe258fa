import Mathlib.Data.List.Forall2
import QuantumKernel.Kernel.Line
import QuantumKernel.Kernel.Program
/-! # Grammar — the language of kernels

What a kernel denotes, said by rules and not by reading it.  `CleanForm` says what a line comes to, `TokensOf` how that
is made of tokens, `Names` which qubit an operand names, `Denotes` which instruction a line stands for, and `StandsFor` which
instructions a source stands for.
-/
namespace QuantumKernel

/-- An instruction is well formed when it has as many qubits as its gate acts on, all of them different, and each with an
index below the bound. -/
def Instruction.WellFormed (i : Instruction) : Prop :=
  i.qubits.length = i.gate.arity ∧ i.qubits.Nodup ∧ ∀ q ∈ i.qubits, q.toNat < Qubit.bound

instance (i : Instruction) : Decidable i.WellFormed :=
  inferInstanceAs (Decidable (_ ∧ _ ∧ ∀ q ∈ i.qubits, q.toNat < Qubit.bound))

namespace Grammar

/-! ## Lines -/

/-- The part of a line in front of its first comment marker, or the whole line if it has none. -/
def BeforeComment (line before : Text) : Prop :=
  (∃ rest, line = before ++ rest ∧ (rest = [] ∨ Kernel.startsComment rest = true)) ∧
    ∀ a b, line = a ++ b → a.length < before.length → Kernel.startsComment b = false

/-- A text without the blanks around it. -/
def WithoutBlanks (text bare : Text) : Prop :=
  Text.Trimmed bare ∧ ∃ a b, text = a ++ bare ++ b ∧ ∀ c ∈ a ++ b, Text.isBlank c = true

/-- What a line comes to: the part in front of its comment, without the blanks around it. -/
def CleanForm (line bare : Text) : Prop := ∃ before, BeforeComment line before ∧ WithoutBlanks before bare

/-! ## Tokens -/

/-- A token: a text without separators, and not empty. -/
def IsToken (word : Text) : Prop := word ≠ [] ∧ ∀ c ∈ word, Kernel.isSeparator c = false

/-- The tokens of a text: with separators between them, and any number of separators around. -/
inductive TokensOf : Text → List Text → Prop
  | nil {gap : Text} : (∀ c ∈ gap, Kernel.isSeparator c = true) → TokensOf gap []
  | cons {gap word rest : Text} {words : List Text} : (∀ c ∈ gap, Kernel.isSeparator c = true) → IsToken word →
      (∀ c ∈ rest.head?, Kernel.isSeparator c = true) → TokensOf rest words →
      TokensOf (gap ++ word ++ rest) (word :: words)

/-- The ways to write an operand with these digits. -/
inductive Operand (digits : Text) : Text → Prop
  | bare : Operand digits digits
  | letter {q : Char} : q = 'q' ∨ q = 'Q' → Operand digits (q :: digits)
  | brackets {q : Char} : q = 'q' ∨ q = 'Q' → Operand digits (q :: '[' :: digits ++ [']'])

/-- The value of digits. -/
def Numeral (digits : Text) (n : Nat) : Prop :=
  digits ≠ [] ∧ (∀ c ∈ digits, c.isDigit = true) ∧ Nat.ofDigitChars 10 digits 0 = n

/-- The qubit that a token names. -/
def Names (token : Text) (q : Qubit) : Prop :=
  q.toNat < Qubit.bound ∧ ∃ digits, Operand digits token ∧ Numeral digits q.toNat

/-- The gate that a token names, with letters of either case. -/
def NamesGate (token : Text) (g : Gate) : Prop :=
  token.map Char.toUpper = g.mnemonic ∨ g = .cnot ∧ token.map Char.toUpper = "CX".toList

/-! ## Instructions -/

/-- The instruction that a clean line stands for: a gate, and operands for as many different qubits as it acts on. -/
def Denotes (line : Text) (i : Instruction) : Prop :=
  i.WellFormed ∧ ∃ name operands,
    TokensOf line (name :: operands) ∧ NamesGate name i.gate ∧ List.Forall₂ Names operands i.qubits

/-- The instructions that a source stands for: one for each line that comes to anything, and at least one. -/
def StandsFor (source : Text) (instructions : List Instruction) : Prop :=
  ∃ bares, List.Forall₂ CleanForm (Text.pieces source) bares ∧
    List.Forall₂ Denotes (bares.filter (· ≠ [])) instructions ∧ instructions ≠ []

/-- Whether instructions fit a limit on the number of qubits. -/
def Fits (limit : Option UInt64) (instructions : List Instruction) : Prop :=
  ∀ n ∈ limit, ∀ i ∈ instructions, ∀ q ∈ i.qubits, q < n

end Grammar
end QuantumKernel
