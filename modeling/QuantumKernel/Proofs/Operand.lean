import Mathlib.Data.List.Induction
import QuantumKernel.Proofs.Denotation
/-! # Operand — which texts name a qubit, and which qubit

The value of digits is said here digit by digit and not by the function that reads them (`Worth`, `worth_iff`).  A text is
decoded as a number below the largest word exactly when it is an operand worth that number (`map_toNat_ofToken?_eq_some_iff`);
an operand can be taken for one in one way only (`Operand.unique`), and no text that is misspelt is one
(`Operand.not_misspelt`).
-/
namespace QuantumKernel
namespace Grammar

/-! ## The value of digits -/

/-- What digits are worth: a digit alone is worth itself, and one more at the end is added to ten times what was there. -/
inductive Worth : Text → Nat → Prop
  | digit {d : Nat} : d < 10 → Worth [Nat.digitChar d] d
  | snoc {digits : Text} {n d : Nat} : Worth digits n → d < 10 → Worth (digits ++ [Nat.digitChar d]) (10 * n + d)

theorem exists_digitChar {c : Char} (h : c.isDigit = true) : ∃ d < 10, Nat.digitChar d = c := by
  obtain ⟨hlow, hhigh⟩ := Char.isDigit_iff_toNat.1 h
  have hzero : '0'.toNat = 48 := rfl
  have hnine : '9'.toNat = 57 := rfl
  refine ⟨c.toNat - 48, by omega, Char.toNat_inj.1 ?_⟩
  rw [Nat.toNat_digitChar_of_lt_ten (by omega)]
  omega

theorem ofDigitChars_concat (digits : Text) {d : Nat} (hd : d < 10) :
    Nat.ofDigitChars 10 (digits ++ [Nat.digitChar d]) 0 = 10 * Nat.ofDigitChars 10 digits 0 + d := by
  rw [Nat.ofDigitChars_append, Nat.ofDigitChars_cons_digitChar_of_lt_ten hd, Nat.ofDigitChars_nil]

theorem Worth.numeral {digits : Text} {n : Nat} (h : Worth digits n) : Numeral digits n := by
  induction h with
  | digit hd =>
    refine ⟨List.cons_ne_nil _ _, ?_, ?_⟩
    · simpa [Nat.isDigit_digitChar] using hd
    · simpa using ofDigitChars_concat [] hd
  | @snoc digits n d _ hd ih =>
    obtain ⟨-, hdigits, rfl⟩ := ih
    refine ⟨List.append_ne_nil_of_right_ne_nil _ (List.cons_ne_nil _ _), fun c hc => ?_, ofDigitChars_concat digits hd⟩
    rcases List.mem_append.1 hc with hc | hc
    · exact hdigits c hc
    · rw [List.mem_singleton.1 hc, Nat.isDigit_digitChar, decide_eq_true hd]

theorem worth_ofDigitChars {digits : Text} (hne : digits ≠ []) (hdigits : ∀ c ∈ digits, c.isDigit = true) :
    Worth digits (Nat.ofDigitChars 10 digits 0) := by
  -- the value grows at the end, so the induction takes the last digit off
  induction digits using List.reverseRecOn with
  | nil => exact absurd rfl hne
  | append_singleton digits c ih =>
    obtain ⟨d, hd, rfl⟩ := exists_digitChar (hdigits c (by simp))
    rw [ofDigitChars_concat digits hd]
    by_cases hnil : digits = []
    · rw [hnil]
      simpa using Worth.digit hd
    · exact .snoc (ih hnil fun c hc => hdigits c (List.mem_append_left _ hc)) hd

theorem worth_iff {digits : Text} {n : Nat} : Worth digits n ↔ Numeral digits n := by
  constructor
  · exact Worth.numeral
  · rintro ⟨hne, hdigits, rfl⟩
    exact worth_ofDigitChars hne hdigits

/-- An operand has its digits in one place, and they have one value. -/
theorem Operand.unique {digits others token : Text} {m n : Nat} (h : Operand digits token) (hm : Worth digits m)
    (ho : Operand others token) (hn : Worth others n) : m = n := by
  obtain ⟨-, hdigits, rfl⟩ := hm.numeral
  obtain ⟨-, hothers, rfl⟩ := hn.numeral
  rw [← h.numeral_eq hdigits, ← ho.numeral_eq hothers]

/-! ## Spelling -/

/-- Texts that do not look like an operand: with a character that is neither a digit nor a letter `q` nor a bracket, without
a digit, with a bracket and no letter in front, with a bracket that has no partner, or with two of a kind. -/
inductive Misspelt (token : Text) : Prop
  | foreign {c : Char} : c ∈ token → c.isDigit = false → c ∉ ['q', 'Q', '[', ']'] → Misspelt token
  | noDigit : (∀ c ∈ token, c.isDigit = false) → Misspelt token
  | noLetter : '[' ∈ token ∨ ']' ∈ token → token.head? ≠ some 'q' → token.head? ≠ some 'Q' → Misspelt token
  | unmatched : token.count '[' ≠ token.count ']' → Misspelt token
  | doubled : 1 < token.count '[' ∨ 1 < token.count ']' → Misspelt token

/-- What may stand in front of the digits of an operand, and after them. -/
def frames : List (Text × Text) := [([], []), (['q'], []), (['Q'], []), (['q', '['], [']']), (['Q', '['], [']'])]

theorem Operand.exists_frame {digits token : Text} (h : Operand digits token) :
    ∃ f ∈ frames, token = f.1 ++ digits ++ f.2 := by
  cases h with
  | bare => exact ⟨([], []), by decide, by simp⟩
  | letter hq =>
    rcases hq with rfl | rfl
    · exact ⟨(['q'], []), by decide, by simp⟩
    · exact ⟨(['Q'], []), by decide, by simp⟩
  | brackets hq =>
    rcases hq with rfl | rfl
    · exact ⟨(['q', '['], [']']), by decide, by simp⟩
    · exact ⟨(['Q', '['], [']']), by decide, by simp⟩

/-- A frame holds letters and brackets only, a bracket behind a letter only, and at most one pair. -/
theorem frames_spelt : ∀ f ∈ frames, f.1 ++ f.2 ⊆ ['q', 'Q', '[', ']'] ∧
    ('[' ∈ f.1 ++ f.2 ∨ ']' ∈ f.1 ++ f.2 → f.1.head? = some 'q' ∨ f.1.head? = some 'Q') ∧
    f.1.count '[' + f.2.count '[' = f.1.count ']' + f.2.count ']' ∧ f.1.count '[' + f.2.count '[' ≤ 1 := by decide

/-- **No operand is misspelt.**  Digits are no brackets, so what is asked of the brackets is asked of the frame alone. -/
theorem Operand.not_misspelt {digits token : Text} {n : Nat} (h : Operand digits token) (hn : Numeral digits n) :
    ¬ Misspelt token := by
  obtain ⟨hne, hdigits, -⟩ := hn
  obtain ⟨f, hf, rfl⟩ := h.exists_frame
  obtain ⟨hletters, hhead, hpair, hone⟩ := frames_spelt f hf
  have hopen : '[' ∉ digits := fun hc => absurd (hdigits _ hc) (by decide)
  have hclose : ']' ∉ digits := fun hc => absurd (hdigits _ hc) (by decide)
  intro hbad
  cases hbad with
  | @foreign c hc hdigit hother =>
    have hcdigits : c ∉ digits := fun hmem => by
      rw [hdigits c hmem] at hdigit
      cases hdigit
    exact hother (hletters (by simpa [hcdigits] using hc))
  | noDigit hnone =>
    obtain ⟨c, rest, rfl⟩ := List.exists_cons_of_ne_nil hne
    have hc := hdigits c (List.mem_cons_self ..)
    rw [hnone c (by simp)] at hc
    cases hc
  | noLetter hbracket hlower hupper =>
    rcases hhead (by simpa [hopen, hclose] using hbracket) with hq | hq
    · exact hlower (by simp [hq])
    · exact hupper (by simp [hq])
  | unmatched hcount =>
    simp only [List.count_append, List.count_eq_zero_of_not_mem hopen, List.count_eq_zero_of_not_mem hclose] at hcount
    omega
  | doubled hcount =>
    simp only [List.count_append, List.count_eq_zero_of_not_mem hopen, List.count_eq_zero_of_not_mem hclose] at hcount
    omega

/-! ## Decoding -/

theorem map_toNat_ofToken?_eq_some_iff {token : Text} {n : Nat} : (Qubit.ofToken? token).map UInt64.toNat = some n ↔
    n ≤ UInt64.size - 2 ∧ ∃ digits, Operand digits token ∧ Worth digits n := by
  simp only [Option.map_eq_some_iff, ← names_iff, Names, worth_iff]
  have hbound : Qubit.bound = UInt64.size - 1 := rfl
  have hsize : UInt64.size = 18446744073709551616 := rfl
  constructor
  · rintro ⟨q, ⟨hq, hdigits⟩, rfl⟩
    exact ⟨by omega, hdigits⟩
  · rintro ⟨hn, hdigits⟩
    have hq : (UInt64.ofNat n).toNat = n := UInt64.toNat_ofNat_of_lt' (by omega)
    refine ⟨UInt64.ofNat n, ?_, hq⟩
    rw [hq]
    exact ⟨by omega, hdigits⟩

theorem ofToken?_eq_none_iff {token : Text} : Qubit.ofToken? token = none ↔
    ∀ digits n, Operand digits token → Worth digits n → UInt64.size - 1 ≤ n := by
  constructor
  · intro hnone digits n hoperand hworth
    by_contra hn
    have hsome := map_toNat_ofToken?_eq_some_iff.2 ⟨by omega, digits, hoperand, hworth⟩
    rw [hnone] at hsome
    cases hsome
  · intro hlarge
    by_contra hsome
    obtain ⟨q, hq⟩ := Option.ne_none_iff_exists'.1 hsome
    have hread : (Qubit.ofToken? token).map UInt64.toNat = some q.toNat := by
      rw [hq]
      rfl
    obtain ⟨hn, digits, hoperand, hworth⟩ := map_toNat_ofToken?_eq_some_iff.1 hread
    have hsize : UInt64.size = 18446744073709551616 := rfl
    have := hlarge digits _ hoperand hworth
    omega

/-- **A text is decoded as the number that it is worth as an operand, up to the largest index.**  Every other text is decoded
as nothing: one that is misspelt, and an operand worth the largest word or more, however long its digits are. -/
theorem decodes_exactly_operands (token : Text) :
    (∀ n : Nat, (Qubit.ofToken? token).map UInt64.toNat = some n ↔
      n ≤ UInt64.size - 2 ∧ ∃ digits, Operand digits token ∧ Worth digits n) ∧
    (Qubit.ofToken? token = none ↔ ∀ digits n, Operand digits token → Worth digits n → UInt64.size - 1 ≤ n) ∧
    (Misspelt token → Qubit.ofToken? token = none) ∧
    ∀ digits n, Operand digits token → Worth digits n → UInt64.size - 1 ≤ n → Qubit.ofToken? token = none := by
  refine ⟨fun n => map_toNat_ofToken?_eq_some_iff, ofToken?_eq_none_iff, fun hbad => ?_, fun digits n hoperand hworth hn => ?_⟩
  · refine ofToken?_eq_none_iff.2 fun digits n hoperand hworth => ?_
    exact absurd hbad (hoperand.not_misspelt hworth.numeral)
  · refine ofToken?_eq_none_iff.2 fun others m hothers hm => ?_
    rw [hothers.unique hm hoperand hworth]
    exact hn

example : Qubit.ofToken? "Q[0018446744073709551614]".toList = some 18446744073709551614 ∧
    Qubit.ofToken? "q18446744073709551615".toList = none ∧ Qubit.ofToken? "q[3".toList = none := by decide

end Grammar
end QuantumKernel
