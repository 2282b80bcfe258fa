import QuantumKernel.Proofs.Normalization
import QuantumKernel.Text.Search
/-! # Cut — a line is cut at its first comment marker and nowhere else

A line can be cut without reading it character by character: each of the two markers is searched among the bytes of the line,
and the line is cut at the occurrence that comes first (`cut`).  That place is never within a character, and what stands before
it is the line without its comment (`takeBytes?_cut`).
-/
namespace QuantumKernel
namespace Kernel

open Text (find? takeBytes? utf8 utf8Length)

/-- Where the comment of a line starts, counted in bytes; the end of the line if it has no comment. -/
def cut (line : Text) : Nat :=
  ([find? "//".toList line, find? "#".toList line].filterMap id).min?.getD line.utf8Length

/-- Whether the bytes of a comment marker stand at a place of a line. -/
def MarkerAt (line : Text) (i : Nat) : Prop :=
  utf8 "//".toList <+: (utf8 line).drop i ∨ utf8 "#".toList <+: (utf8 line).drop i

theorem markerAt_iff {line : Text} {i : Nat} :
    MarkerAt line i ↔ ∃ a b, line = a ++ b ∧ utf8Length a = i ∧ startsComment b = true := by
  have hslash : "//".toList ≠ [] := by decide
  have hhash : "#".toList ≠ [] := by decide
  unfold MarkerAt
  rw [Text.isPrefix_drop_utf8_iff hslash, Text.isPrefix_drop_utf8_iff hhash]
  simp only [startsComment_iff]
  grind

/-- **The cut is at the first marker**, or at the end of a line that has none. -/
theorem cut_cases (line : Text) :
    (MarkerAt line (cut line) ∧ ∀ i < cut line, ¬ MarkerAt line i) ∨
      cut line = utf8Length line ∧ ∀ i, ¬ MarkerAt line i := by
  unfold cut MarkerAt
  cases hslash : find? "//".toList line with
  | none =>
    rw [Text.find?_eq_none_iff] at hslash
    cases hhash : find? "#".toList line with
    | none =>
      rw [Text.find?_eq_none_iff] at hhash
      exact Or.inr ⟨rfl, fun i => not_or.2 ⟨hslash i, hhash i⟩⟩
    | some n =>
      rw [Text.find?_eq_some_iff] at hhash
      exact Or.inl ⟨Or.inr hhash.1, fun i hi => not_or.2 ⟨hslash i, hhash.2 i hi⟩⟩
  | some m =>
    rw [Text.find?_eq_some_iff] at hslash
    cases hhash : find? "#".toList line with
    | none =>
      rw [Text.find?_eq_none_iff] at hhash
      exact Or.inl ⟨Or.inl hslash.1, fun i hi => not_or.2 ⟨hslash.2 i hi, hhash i⟩⟩
    | some n =>
      rw [Text.find?_eq_some_iff] at hhash
      have hmin : ([some m, some n].filterMap id).min?.getD (utf8Length line) = min m n := rfl
      rw [hmin]
      refine Or.inl ⟨?_, fun i hi => not_or.2 ⟨hslash.2 i (by omega), hhash.2 i (by omega)⟩⟩
      rcases Nat.le_total m n with hmn | hnm
      · rw [Nat.min_eq_left hmn]
        exact Or.inl hslash.1
      · rw [Nat.min_eq_right hnm]
        exact Or.inr hhash.1

theorem not_markerAt_of_lt_cut {line : Text} {i : Nat} (h : i < cut line) : ¬ MarkerAt line i := by
  rcases cut_cases line with ⟨-, hearlier⟩ | ⟨-, hnone⟩
  · exact hearlier i h
  · exact hnone i

theorem cut_le (line : Text) : cut line ≤ utf8Length line := by
  rcases cut_cases line with ⟨hmarker, -⟩ | ⟨hend, -⟩
  · obtain ⟨a, b, hline, hlen, -⟩ := markerAt_iff.1 hmarker
    rw [← hlen]
    exact Text.utf8Length_le_of_isPrefix ⟨b, hline.symm⟩
  · exact Nat.le_of_eq hend

/-- No marker stands in front of the comment: one that did would be among the characters, and the comment would start there. -/
theorem not_markerAt_of_lt_stripComment {line : Text} {i : Nat} (h : i < utf8Length (stripComment line)) :
    ¬ MarkerAt line i := by
  obtain ⟨⟨rest, hline, -⟩, hearlier⟩ := Grammar.beforeComment_stripComment line
  intro hmarker
  obtain ⟨a, b, hab, rfl, hb⟩ := markerAt_iff.1 hmarker
  have hlen : a.length < (stripComment line).length := by
    by_contra hlen
    have hprefix : stripComment line <+: a :=
      List.prefix_of_prefix_length_le ⟨rest, hline.symm⟩ ⟨b, hab.symm⟩ (Nat.le_of_not_lt hlen)
    have := Text.utf8Length_le_of_isPrefix hprefix
    omega
  rw [hearlier a b hab hlen] at hb
  cases hb

/-- **The line without its comment ends at the cut.** -/
theorem utf8Length_stripComment (line : Text) : utf8Length (stripComment line) = cut line := by
  obtain ⟨⟨rest, hline, hrest⟩, -⟩ := Grammar.beforeComment_stripComment line
  have hle : cut line ≤ utf8Length (stripComment line) := by
    rcases hrest with rfl | hstart
    · rw [List.append_nil] at hline
      rw [← hline]
      exact cut_le line
    · by_contra hlt
      exact not_markerAt_of_lt_cut (Nat.lt_of_not_le hlt) (markerAt_iff.2 ⟨_, rest, hline, rfl, hstart⟩)
  have hge : utf8Length (stripComment line) ≤ cut line := by
    by_contra hlt
    have hno := not_markerAt_of_lt_stripComment (Nat.lt_of_not_le hlt)
    rcases cut_cases line with ⟨hmarker, -⟩ | ⟨hend, -⟩
    · exact hno hmarker
    · have := Text.utf8Length_le_of_isPrefix ⟨rest, hline.symm⟩
      omega
  exact Nat.le_antisymm hge hle

/-- **Cutting a line there leaves the line without its comment.** -/
theorem takeBytes?_cut (line : Text) : takeBytes? line (cut line) = some (stripComment line) := by
  obtain ⟨⟨rest, hline, -⟩, -⟩ := Grammar.beforeComment_stripComment line
  exact Text.takeBytes?_eq_some_iff.2 ⟨⟨rest, hline.symm⟩, utf8Length_stripComment line⟩

theorem exists_comment (line : Text) : ∃ rest, line = stripComment line ++ rest ∧
    ((stripComment line).length < line.length → startsComment rest = true) := by
  obtain ⟨⟨rest, hline, hrest⟩, -⟩ := Grammar.beforeComment_stripComment line
  refine ⟨rest, hline, fun hlen => hrest.resolve_left fun hnil => ?_⟩
  rw [hnil, List.append_nil] at hline
  rw [← hline] at hlen
  exact Nat.lt_irrefl _ hlen

theorem markerAt_cut {line : Text} (h : (stripComment line).length < line.length) : MarkerAt line (cut line) := by
  obtain ⟨rest, hline, hstart⟩ := exists_comment line
  exact markerAt_iff.2 ⟨stripComment line, rest, hline, utf8Length_stripComment line, hstart h⟩

theorem isValid_cut (line : Text) : (⟨cut line⟩ : String.Pos.Raw).IsValid (String.ofList line) := by
  rw [← Text.isSome_takeBytes?_iff, takeBytes?_cut]
  rfl

/-- **A line is cut at its earliest comment marker and nowhere else.**  The cut is in the line and at the end of a
character; what is in front of it is a beginning of the line, a marker stands at it if anything is cut off, and none at any
earlier byte; a line without a marker stays whole.  So what is left has no marker, and neither has any piece of it, such as
the piece without blanks around it, which stays as it is. -/
theorem cut_at_earliest_marker (line : Text) :
    (cut line ≤ utf8Length line ∧ (⟨cut line⟩ : String.Pos.Raw).IsValid (String.ofList line)) ∧
    (takeBytes? line (cut line) = some (stripComment line) ∧
      utf8 (stripComment line) = (utf8 line).take (cut line)) ∧
    (∃ rest, line = stripComment line ++ rest ∧
      ((stripComment line).length < line.length → "#".toList <+: rest ∨ "//".toList <+: rest)) ∧
    ((stripComment line).length < line.length → MarkerAt line (cut line)) ∧
    (∀ i < cut line, ¬ MarkerAt line i) ∧
    ((∀ i, ¬ MarkerAt line i) → stripComment line = line) ∧
    (∀ piece, piece <:+: stripComment line → '#' ∉ piece ∧ ¬ "//".toList <:+: piece) ∧
    cleanLine line <:+: stripComment line ∧
    cleanLine (cleanLine line) = cleanLine line := by
  obtain ⟨rest, hline, hstart⟩ := exists_comment line
  refine ⟨⟨cut_le line, isValid_cut line⟩, ⟨takeBytes?_cut line, Text.utf8_of_takeBytes? (takeBytes?_cut line)⟩,
    ⟨rest, hline, fun hlen => startsComment_iff.1 (hstart hlen)⟩, markerAt_cut, fun i => not_markerAt_of_lt_cut,
    fun hnone => ?_, fun piece => (unmarked_stripComment line).of_isInfix, cleanLine_isInfix line, cleanLine_cleanLine line⟩
  have hprefix : stripComment line <+: line := ⟨rest, hline.symm⟩
  exact hprefix.eq_of_length_le (Nat.le_of_not_lt fun hlen => hnone _ (markerAt_cut hlen))

example : cut "Zλ/#é//".toList = 4 ∧ takeBytes? "Zλ/#é//".toList 4 = some "Zλ/".toList ∧
    takeBytes? "Zλ/#é//".toList 2 = none := by decide

end Kernel
end QuantumKernel
