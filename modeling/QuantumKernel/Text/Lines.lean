import QuantumKernel.Text.Basic
/-! # Lines — cutting a text into pieces, and into lines

`splitWhere p` cuts a text at every character that `p` picks, and drops those characters.  `lines` cuts at line feeds
alone: a line feed, with one carriage return right before it, ends a line, and what follows the last line feed is a line
only if it is not empty.  `unlines` puts line feeds between the lines, so a final empty line does not survive
`lines ∘ unlines`.
-/
namespace QuantumKernel
namespace Text

/-- The pieces between the characters that `p` picks; always at least one. -/
def splitWhere (p : Char → Bool) (t : Text) : List Text :=
  t.foldr (fun c pieces => if p c then [] :: pieces else pieces.modifyHead (c :: ·)) [[]]

def pieces (t : Text) : List Text := splitWhere (· == '\n') t

/-- A text without a carriage return at its end. -/
def dropReturn (t : Text) : Text := if t.getLast? = some '\r' then t.dropLast else t

/-- The lines that pieces between line feeds stand for: each piece but the last was ended by a line feed, and may have
a carriage return before it; an empty last piece is no line. -/
def linesOfPieces : List Text → List Text
  | [] => []
  | [last] => if last.isEmpty then [] else [last]
  | piece :: next :: rest => dropReturn piece :: linesOfPieces (next :: rest)

def lines (t : Text) : List Text := linesOfPieces (pieces t)

/-- Lines joined by line feeds, without one at the end. -/
def unlines (ls : List Text) : Text := ['\n'].intercalate ls

@[simp] theorem splitWhere_nil (p : Char → Bool) : splitWhere p [] = [[]] := rfl

theorem splitWhere_cons (p : Char → Bool) (c : Char) (t : Text) :
    splitWhere p (c :: t) = if p c then [] :: splitWhere p t else (splitWhere p t).modifyHead (c :: ·) := rfl

theorem splitWhere_ne_nil (p : Char → Bool) : ∀ t : Text, splitWhere p t ≠ []
  | [] => by simp
  | c :: t => by
    rw [splitWhere_cons]
    split
    · simp
    · simpa [List.modifyHead_eq_nil_iff] using splitWhere_ne_nil p t

/-- **A picked character separates what is before it from what is after it.** -/
theorem splitWhere_append_cons {p : Char → Bool} {c : Char} (hc : p c = true) (b : Text) :
    ∀ a : Text, splitWhere p (a ++ c :: b) = splitWhere p a ++ splitWhere p b
  | [] => by simp [splitWhere_cons, hc]
  | d :: a => by
    rw [List.cons_append, splitWhere_cons, splitWhere_cons, splitWhere_append_cons hc b a]
    split
    · rfl
    · obtain ⟨w, ws, hw⟩ := List.exists_cons_of_ne_nil (splitWhere_ne_nil p a)
      rw [hw, List.cons_append, List.modifyHead_cons, List.modifyHead_cons, List.cons_append]

/-- A text without a picked character is one piece. -/
theorem splitWhere_of_forall {p : Char → Bool} : ∀ {t : Text}, (∀ c ∈ t, p c = false) → splitWhere p t = [t]
  | [], _ => rfl
  | c :: t, h => by
    rw [splitWhere_cons, if_neg (by simp [h c (List.mem_cons_self ..)]),
      splitWhere_of_forall fun d hd => h d (List.mem_cons_of_mem _ hd), List.modifyHead_cons]

/-- No piece has a picked character. -/
theorem not_of_mem_splitWhere {p : Char → Bool} : ∀ {t w : Text}, w ∈ splitWhere p t → ∀ c ∈ w, p c = false
  | [], w, hw => by
    rw [splitWhere_nil, List.mem_singleton] at hw
    subst hw
    simp
  | d :: t, w, hw => by
    rw [splitWhere_cons] at hw
    split at hw
    · rcases List.mem_cons.1 hw with rfl | hw
      · simp
      · exact not_of_mem_splitWhere hw
    · rename_i hd
      obtain ⟨v, vs, hv⟩ := List.exists_cons_of_ne_nil (splitWhere_ne_nil p t)
      rw [hv, List.modifyHead_cons] at hw
      rcases List.mem_cons.1 hw with rfl | hw
      · intro c hc
        rcases List.mem_cons.1 hc with rfl | hc
        · simpa using hd
        · exact not_of_mem_splitWhere (hv ▸ List.mem_cons_self ..) c hc
      · exact not_of_mem_splitWhere (hv ▸ List.mem_cons_of_mem _ hw)

theorem subset_of_mem_splitWhere {p : Char → Bool} : ∀ {t w : Text}, w ∈ splitWhere p t → w ⊆ t
  | [], w, hw => by
    rw [splitWhere_nil, List.mem_singleton] at hw
    subst hw
    exact List.nil_subset _
  | d :: t, w, hw => by
    rw [splitWhere_cons] at hw
    split at hw
    · rcases List.mem_cons.1 hw with rfl | hw
      · exact List.nil_subset _
      · exact List.subset_cons_of_subset d (subset_of_mem_splitWhere hw)
    · obtain ⟨v, vs, hv⟩ := List.exists_cons_of_ne_nil (splitWhere_ne_nil p t)
      rw [hv, List.modifyHead_cons] at hw
      rcases List.mem_cons.1 hw with rfl | hw
      · exact List.cons_subset_cons d (subset_of_mem_splitWhere (hv ▸ List.mem_cons_self ..))
      · exact List.subset_cons_of_subset d (subset_of_mem_splitWhere (hv ▸ List.mem_cons_of_mem _ hw))

theorem pieces_ne_nil (t : Text) : pieces t ≠ [] := splitWhere_ne_nil _ t

@[simp] theorem pieces_nil : pieces [] = [[]] := rfl

theorem pieces_append_newline (a b : Text) : pieces (a ++ '\n' :: b) = pieces a ++ pieces b :=
  splitWhere_append_cons (by decide) b a

theorem pieces_of_not_mem {t : Text} (h : '\n' ∉ t) : pieces t = [t] :=
  splitWhere_of_forall fun c hc => by
    have hne : c ≠ '\n' := fun e => h (e ▸ hc)
    simpa using hne

theorem newline_not_mem_of_mem_pieces {t w : Text} (h : w ∈ pieces t) : '\n' ∉ w :=
  fun hn => by simpa using not_of_mem_splitWhere h _ hn

@[simp] theorem unlines_nil : unlines [] = [] := rfl

@[simp] theorem unlines_singleton (l : Text) : unlines [l] = l := by simp [unlines]

@[simp] theorem unlines_cons_cons (l m : Text) (ls : List Text) :
    unlines (l :: m :: ls) = l ++ '\n' :: unlines (m :: ls) := by simp [unlines, List.intercalate_cons_cons]

/-- **Joined pieces are cut where they were joined.** -/
theorem pieces_unlines : ∀ {ls : List Text}, ls ≠ [] → (∀ l ∈ ls, '\n' ∉ l) → pieces (unlines ls) = ls
  | [], h, _ => absurd rfl h
  | [l], _, h => by rw [unlines_singleton, pieces_of_not_mem (h l (by simp))]
  | l :: m :: ls, _, h => by
    rw [unlines_cons_cons, pieces_append_newline, pieces_of_not_mem (h l (by simp)),
      pieces_unlines (by simp) fun k hk => h k (List.mem_cons_of_mem _ hk)]
    rfl

/-- **A text cut at a character and joined by it is the text.** -/
theorem intercalate_splitWhere {sep : Char} : ∀ t : Text, [sep].intercalate (splitWhere (· == sep) t) = t
  | [] => by simp
  | c :: t => by
    have ih : [sep].intercalate (splitWhere (· == sep) t) = t := intercalate_splitWhere t
    obtain ⟨w, ws, hw⟩ := List.exists_cons_of_ne_nil (splitWhere_ne_nil (· == sep) t)
    rw [splitWhere_cons]
    rw [hw] at ih ⊢
    split
    · rename_i hc
      rw [List.intercalate_cons_cons, ih, eq_of_beq hc]
      rfl
    · rw [List.modifyHead_cons, List.intercalate_cons_cons_left, ih]

theorem unlines_pieces (t : Text) : unlines (pieces t) = t := intercalate_splitWhere t

/-! ## Lines -/

theorem linesOfPieces_cons_of_ne_nil (w : Text) {ws : List Text} (h : ws ≠ []) :
    linesOfPieces (w :: ws) = dropReturn w :: linesOfPieces ws := by
  obtain ⟨v, vs, rfl⟩ := List.exists_cons_of_ne_nil h
  rfl

end Text
end QuantumKernel
