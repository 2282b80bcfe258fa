import QuantumKernel.Text.Basic
/-! # Blank — white space

A character is blank when it has the Unicode property `White_Space`; `trim` takes blanks off both ends of a text.
`Trimmed` says it of a text that there are none to take off.
-/
namespace QuantumKernel
namespace Text

/-- The code points with the property `White_Space`, as ranges with both ends included. -/
def blankRanges : List (Nat × Nat) :=
  [(0x0009, 0x000D), (0x0020, 0x0020), (0x0085, 0x0085), (0x00A0, 0x00A0), (0x1680, 0x1680),
   (0x2000, 0x200A), (0x2028, 0x2029), (0x202F, 0x202F), (0x205F, 0x205F), (0x3000, 0x3000)]

def isBlank (c : Char) : Bool := blankRanges.any fun r => decide (r.1 ≤ c.toNat ∧ c.toNat ≤ r.2)

def trimStart (t : Text) : Text := t.dropWhile isBlank

def trimEnd (t : Text) : Text := (t.reverse.dropWhile isBlank).reverse

def trim (t : Text) : Text := trimEnd (trimStart t)

/-- A text is trimmed when it neither starts nor ends with a blank. -/
def Trimmed (t : Text) : Prop := (∀ c ∈ t.head?, isBlank c = false) ∧ ∀ c ∈ t.getLast?, isBlank c = false

theorem trimStart_eq_self {t : Text} (h : ∀ c ∈ t.head?, isBlank c = false) : trimStart t = t := by
  cases t with
  | nil => rfl
  | cons c t => rw [trimStart, List.dropWhile_cons_of_neg (by simp [h c rfl])]

theorem trimEnd_eq_self {t : Text} (h : ∀ c ∈ t.getLast?, isBlank c = false) : trimEnd t = t := by
  have hr : trimStart t.reverse = t.reverse := trimStart_eq_self (by simpa using h)
  rw [trimEnd]
  rw [trimStart] at hr
  rw [hr, List.reverse_reverse]

theorem trimStart_cons_of_isBlank {c : Char} (h : isBlank c = true) (t : Text) :
    trimStart (c :: t) = trimStart t := by
  rw [trimStart, List.dropWhile_cons_of_pos h, trimStart]

/-- Blanks in front of a text are taken off. -/
theorem trimStart_append {b : Text} (h : ∀ c ∈ b, isBlank c = true) (t : Text) :
    trimStart (b ++ t) = trimStart t := by
  induction b with
  | nil => rfl
  | cons c b ih =>
    rw [List.cons_append, trimStart_cons_of_isBlank (h c (List.mem_cons_self ..)),
      ih fun d hd => h d (List.mem_cons_of_mem _ hd)]

/-- Blanks after a text are taken off. -/
theorem trimEnd_append {b : Text} (h : ∀ c ∈ b, isBlank c = true) (t : Text) : trimEnd (t ++ b) = trimEnd t := by
  have hb : trimStart (b.reverse ++ t.reverse) = trimStart t.reverse :=
    trimStart_append (fun c hc => h c (List.mem_reverse.1 hc)) _
  rw [trimStart, trimStart] at hb
  rw [trimEnd, List.reverse_append, hb, trimEnd]

/-- **A trimmed text has nothing to take off.** -/
theorem trim_eq_self {t : Text} (h : Trimmed t) : trim t = t := by
  rw [trim, trimStart_eq_self h.1, trimEnd_eq_self h.2]

end Text
end QuantumKernel
