import QuantumKernel.Text.Decimal
/-! # Qubit — qubit indices and the operands that name them

A qubit is named by a 64-bit index.  An operand is a run of digits, which may follow the letter `q` and may then stand in
square brackets.  The largest word is no index, so one more than an index is always a word.
-/
namespace QuantumKernel

abbrev Qubit := UInt64

namespace Qubit

/-- Indices lie below this bound, so that one more than an index is a word. -/
def bound : Nat := UInt64.size - 1

/-- What stands between the square brackets that enclose a whole text; any other text as it is. -/
def unbracketed : Text → Text
  | '[' :: inner => if inner.getLast? = some ']' then inner.dropLast else '[' :: inner
  | t => t

/-- The part of an operand that has to be its digits. -/
def numeral : Text → Text
  | 'q' :: rest => unbracketed rest
  | 'Q' :: rest => unbracketed rest
  | token => token

def ofToken? (token : Text) : Option Qubit :=
  match Text.decimal? (numeral token) with
  | some n => if n < bound then some (UInt64.ofNat n) else none
  | none => none

def text (q : Qubit) : Text := Text.decimal q.toNat

theorem isDigit_of_mem_text {q : Qubit} {c : Char} (h : c ∈ q.text) : c.isDigit = true :=
  Text.isDigit_of_mem_decimal h

theorem text_ne_nil (q : Qubit) : q.text ≠ [] := Text.decimal_ne_nil _

/-- Distinct indices are written differently. -/
theorem text_inj {p q : Qubit} : p.text = q.text ↔ p = q :=
  ⟨fun h => UInt64.toNat_inj.1 (Text.decimal_inj.1 h), fun h => h ▸ rfl⟩

/-- Digits alone are their own numeral. -/
theorem numeral_of_isDigit : ∀ {t : Text}, (∀ c ∈ t, c.isDigit = true) → numeral t = t
  | [], _ => rfl
  | c :: t, h => by
    have hc := h c (List.mem_cons_self ..)
    unfold numeral
    split
    · rename_i he
      rw [(List.cons.inj he).1] at hc
      exact absurd hc (by decide)
    · rename_i he
      rw [(List.cons.inj he).1] at hc
      exact absurd hc (by decide)
    · rfl

/-- **A written index is an operand that names it, unless it is the largest word.** -/
theorem ofToken?_text (q : Qubit) : ofToken? q.text = if q.toNat < bound then some q else none := by
  rw [ofToken?, numeral_of_isDigit fun _ => isDigit_of_mem_text, text, Text.decimal?_decimal]
  simp

end Qubit
end QuantumKernel
