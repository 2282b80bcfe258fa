import QuantumKernel.Text.Basic
/-! # Decimal — natural numbers written in decimal

`decimal` writes a number without leading zeros; `decimal?` reads any non-empty run of the ten ASCII digits, leading
zeros included, so it reads back what `decimal` writes (`decimal?_zeros_append`).
-/
namespace QuantumKernel
namespace Text

/-- A number in decimal, without leading zeros. -/
def decimal (n : Nat) : Text := Nat.toDigits 10 n

/-- The number that a non-empty text of ASCII digits denotes. -/
def decimal? (t : Text) : Option Nat :=
  if t ≠ [] ∧ t.all Char.isDigit = true then some (Nat.ofDigitChars 10 t 0) else none

theorem decimal_ne_nil (n : Nat) : decimal n ≠ [] := Nat.toDigits_ne_nil

theorem isDigit_of_mem_decimal {n : Nat} {c : Char} (h : c ∈ decimal n) : c.isDigit = true :=
  Nat.isDigit_of_mem_toDigits (by omega) (by omega) h

theorem ofDigitChars_zeros_append (t : Text) : ∀ zeros : Nat,
    Nat.ofDigitChars 10 (List.replicate zeros '0' ++ t) 0 = Nat.ofDigitChars 10 t 0
  | 0 => rfl
  | zeros + 1 => by
    rw [List.replicate_succ, List.cons_append, Nat.ofDigitChars_cons]
    exact ofDigitChars_zeros_append t zeros

theorem isDigit_of_mem_zeros_append {zeros n : Nat} {c : Char} (h : c ∈ List.replicate zeros '0' ++ decimal n) :
    c.isDigit = true := by
  rcases List.mem_append.1 h with h | h
  · rw [List.eq_of_mem_replicate h]
    decide
  · exact isDigit_of_mem_decimal h

/-- **A written number reads back**, with any zeros in front. -/
theorem decimal?_zeros_append (zeros n : Nat) : decimal? (List.replicate zeros '0' ++ decimal n) = some n := by
  have hne : List.replicate zeros '0' ++ decimal n ≠ [] := List.append_ne_nil_of_right_ne_nil _ (decimal_ne_nil n)
  rw [decimal?, if_pos ⟨hne, List.all_eq_true.2 fun _ h => isDigit_of_mem_zeros_append h⟩, ofDigitChars_zeros_append,
    decimal, Nat.ofDigitChars_toDigits (by omega) (by omega)]

theorem decimal?_decimal (n : Nat) : decimal? (decimal n) = some n := decimal?_zeros_append 0 n

/-- Distinct numbers are written differently. -/
theorem decimal_inj {m n : Nat} : decimal m = decimal n ↔ m = n :=
  ⟨fun h => Option.some.inj (by rw [← decimal?_decimal m, h, decimal?_decimal n]), fun h => h ▸ rfl⟩

end Text
end QuantumKernel
