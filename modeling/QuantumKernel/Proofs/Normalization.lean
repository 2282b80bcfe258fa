import Mathlib.Data.List.Infix
import QuantumKernel.Proofs.Edits
/-! # Normalization — what cleaning a source leaves, and what it leaves as it is

A line is clean when it is trimmed and holds no comment marker (`cleanLine_eq_self_iff`), and cutting a line and trimming
what is left never makes a new marker.  So a clean line stays as it is.  A clean source need not: line feeds stand between
its lines and do not end them, so an empty last line is lost when the source is read again (`lines_unlines`), one each time.
-/
namespace QuantumKernel

/-! ## Lines that are joined -/

namespace Text

theorem linesOfPieces_eq : ∀ {ws : List Text}, (∀ w ∈ ws, dropReturn w = w) →
    linesOfPieces ws = if ws.getLast? = some [] then ws.dropLast else ws
  | [], _ => rfl
  | [last], _ => by
    by_cases hlast : last = []
    · subst hlast
      rfl
    · simp [linesOfPieces, hlast]
  | w :: v :: ws, h => by
    have ih := linesOfPieces_eq fun u hu => h u (List.mem_cons_of_mem w hu)
    rw [linesOfPieces_cons_of_ne_nil w (List.cons_ne_nil v ws), h w (List.mem_cons_self ..), ih,
      List.getLast?_cons_cons, List.dropLast_cons_cons]
    split
    · rfl
    · rfl

/-- **Joined lines are read as they were, but for an empty last one.** -/
theorem lines_unlines {ls : List Text} (hnewline : ∀ l ∈ ls, '\n' ∉ l) (hreturn : ∀ l ∈ ls, dropReturn l = l) :
    lines (unlines ls) = if ls.getLast? = some [] then ls.dropLast else ls := by
  by_cases hls : ls = []
  · subst hls
    rfl
  · rw [lines, pieces_unlines hls hnewline, linesOfPieces_eq hreturn]

theorem unlines_concat (l : Text) : ∀ {ls : List Text}, ls ≠ [] → unlines (ls ++ [l]) = unlines ls ++ '\n' :: l
  | [], h => absurd rfl h
  | [m], _ => by rw [List.singleton_append, unlines_cons_cons, unlines_singleton, unlines_singleton]
  | m :: k :: ls, _ => by
    have ih := unlines_concat l (List.cons_ne_nil k ls)
    rw [List.cons_append, List.cons_append, unlines_cons_cons, unlines_cons_cons, ← List.cons_append, ih,
      List.append_assoc, List.cons_append]

/-- A line feed at the end of joined lines stands in front of an empty last line. -/
theorem getLast?_unlines {ls : List Text} (hnewline : ∀ l ∈ ls, '\n' ∉ l) :
    (unlines ls).getLast? = some '\n' ↔ ∃ first, first ≠ [] ∧ ls = first ++ [[]] := by
  constructor
  · intro h
    rcases List.eq_nil_or_concat ls with rfl | ⟨first, last, rfl⟩
    · cases h
    rw [List.concat_eq_append] at h hnewline ⊢
    have hlast : '\n' ∉ last := hnewline last (by simp)
    by_cases hfirst : first = []
    · rw [hfirst, List.nil_append, unlines_singleton] at h
      exact absurd (List.mem_of_getLast? h) hlast
    · rw [unlines_concat last hfirst, List.getLast?_append, List.getLast?_cons] at h
      refine ⟨first, hfirst, ?_⟩
      cases hend : last.getLast? with
      | none => rw [List.getLast?_eq_none_iff.1 hend]
      | some c =>
        rw [hend] at h
        simp only [Option.getD_some, Option.some_or, Option.some.injEq] at h
        exact absurd (List.mem_of_getLast? (h ▸ hend)) hlast
  · rintro ⟨first, hfirst, rfl⟩
    rw [unlines_concat [] hfirst, List.getLast?_concat]

/-- Without its empty last line, joined lines miss the line feed at their end. -/
theorem unlines_dropLast {ls : List Text} (hnewline : ∀ l ∈ ls, '\n' ∉ l) :
    unlines (if ls.getLast? = some [] then ls.dropLast else ls) =
      if (unlines ls).getLast? = some '\n' then (unlines ls).dropLast else unlines ls := by
  by_cases hend : (unlines ls).getLast? = some '\n'
  · obtain ⟨first, hfirst, rfl⟩ := (getLast?_unlines hnewline).1 hend
    rw [if_pos hend, if_pos List.getLast?_concat, List.dropLast_concat, unlines_concat [] hfirst, List.dropLast_concat]
  · rw [if_neg hend]
    split
    · rename_i hlast
      -- an empty last line without a line feed in front of it is the only one
      obtain ⟨first, rfl⟩ := List.getLast?_eq_some_iff.1 hlast
      have hfirst : first = [] := by
        by_contra hfirst
        exact hend ((getLast?_unlines hnewline).2 ⟨first, hfirst, rfl⟩)
      subst hfirst
      rfl
    · rfl

/-- A text that does not end in a line feed has the lines that its pieces are, unless one ends in a carriage return. -/
theorem lines_eq_pieces {t : Text} (ht : t ≠ []) (hend : t.getLast? ≠ some '\n')
    (hreturn : ∀ w ∈ pieces t, dropReturn w = w) : lines t = pieces t := by
  have hlast : (pieces t).getLast? ≠ some [] := by
    intro hlast
    obtain ⟨first, hfirst⟩ := List.getLast?_eq_some_iff.1 hlast
    have hunlines := unlines_pieces t
    rw [hfirst] at hunlines
    by_cases hnil : first = []
    · rw [hnil] at hunlines
      exact ht hunlines.symm
    · rw [unlines_concat [] hnil] at hunlines
      rw [← hunlines, List.getLast?_concat] at hend
      exact hend rfl
  rw [lines, linesOfPieces_eq hreturn, if_neg hlast]

theorem dropReturn_of_trimmed {t : Text} (h : Trimmed t) : dropReturn t = t := by
  rw [dropReturn, if_neg]
  intro hreturn
  exact absurd (h.2 '\r' hreturn) (by decide)

end Text

/-! ## Clean lines -/

namespace Kernel

open Text (lines pieces unlines dropReturn Trimmed)

/-- A text without a comment marker. -/
def Unmarked (t : Text) : Prop := '#' ∉ t ∧ ¬ "//".toList <:+: t

theorem startsComment_iff {t : Text} : startsComment t = true ↔ "#".toList <+: t ∨ "//".toList <+: t := by
  cases t with
  | nil => simp [startsComment]
  | cons c rest =>
    have hhash : ['#'] <+: c :: rest ↔ c = '#' := by simp [eq_comm]
    have hslash : ['/', '/'] <+: c :: rest ↔ c = '/' ∧ rest.head? = some '/' := by
      cases rest <;> simp [List.cons_prefix_cons, eq_comm]
    show _ ↔ ['#'] <+: c :: rest ∨ ['/', '/'] <+: c :: rest
    rw [startsComment_cons, hhash, hslash]
    simp

theorem unmarked_iff {t : Text} : Unmarked t ↔ ∀ u, u <:+ t → startsComment u = false := by
  have hmem : '#' ∈ t ↔ ∃ u, "#".toList <+: u ∧ u <:+ t := by
    rw [← List.infix_iff_prefix_suffix]
    exact (List.singleton_infix_iff '#' t).symm
  simp only [Unmarked, hmem, List.infix_iff_prefix_suffix, ← Bool.not_eq_true, startsComment_iff]
  grind

theorem Unmarked.of_isInfix {s t : Text} (h : Unmarked t) (hst : s <:+: t) : Unmarked s :=
  ⟨fun hhash => h.1 (hst.subset hhash), fun hslash => h.2 (hslash.trans hst)⟩

theorem Unmarked.stripComment_eq : ∀ {t : Text}, Unmarked t → stripComment t = t
  | [], _ => rfl
  | c :: t, h => by
    have hstart := unmarked_iff.1 h (c :: t) (List.suffix_refl _)
    have ht : Unmarked t := h.of_isInfix (List.suffix_cons c t).isInfix
    rw [stripComment, hstart, ht.stripComment_eq]
    rfl

/-- **What is cut of a line has no comment marker.** -/
theorem unmarked_stripComment (line : Text) : Unmarked (stripComment line) := by
  rw [unmarked_iff]
  rintro u ⟨a, hu⟩
  by_cases hnil : u = []
  · rw [hnil]
    rfl
  obtain ⟨⟨rest, hline, -⟩, hearlier⟩ := Grammar.beforeComment_stripComment line
  rw [← hu, List.append_assoc] at hline
  have hlen : a.length < (stripComment line).length := by
    have := List.length_pos_of_ne_nil hnil
    rw [← hu, List.length_append]
    omega
  have hno := hearlier a (u ++ rest) hline hlen
  by_contra hstart
  rw [Bool.not_eq_false] at hstart
  rw [startsComment_append_of_startsComment hstart] at hno
  cases hno

theorem cleanLine_isInfix (line : Text) : cleanLine line <:+: stripComment line := by
  obtain ⟨a, b, h, -⟩ := Text.trim_eq (stripComment line)
  exact ⟨a, b, h.symm⟩

theorem unmarked_cleanLine (line : Text) : Unmarked (cleanLine line) :=
  (unmarked_stripComment line).of_isInfix (cleanLine_isInfix line)

/-- **A line is clean when it is trimmed and has no comment marker.** -/
theorem cleanLine_eq_self_iff {line : Text} : cleanLine line = line ↔ Trimmed line ∧ Unmarked line := by
  constructor
  · intro h
    rw [← h]
    exact ⟨trimmed_cleanLine line, unmarked_cleanLine line⟩
  · rintro ⟨htrimmed, hunmarked⟩
    rw [cleanLine, hunmarked.stripComment_eq, Text.trim_eq_self htrimmed]

theorem cleanLine_cleanLine (line : Text) : cleanLine (cleanLine line) = cleanLine line :=
  cleanLine_eq_self_iff.2 ⟨trimmed_cleanLine line, unmarked_cleanLine line⟩

theorem map_cleanLine_eq_self {ls : List Text} (h : ∀ l ∈ ls, Trimmed l ∧ Unmarked l) : ls.map cleanLine = ls :=
  (List.map_congr_left fun l hl => cleanLine_eq_self_iff.2 (h l hl)).trans (List.map_id ls)

/-! ## Clean sources -/

theorem newline_not_mem_cleanLines (source : Text) : ∀ l ∈ (lines source).map cleanLine, '\n' ∉ l := by
  intro l hl hn
  obtain ⟨line, hline, rfl⟩ := List.mem_map.1 hl
  exact Text.newline_not_mem_of_mem_lines hline (mem_of_mem_cleanLine hn)

theorem clean_of_mem_cleanLines {source l : Text} (h : l ∈ (lines source).map cleanLine) : Trimmed l ∧ Unmarked l := by
  obtain ⟨line, -, rfl⟩ := List.mem_map.1 h
  exact ⟨trimmed_cleanLine line, unmarked_cleanLine line⟩

theorem dropReturn_of_mem_cleanLines (source : Text) : ∀ l ∈ (lines source).map cleanLine, dropReturn l = l :=
  fun _ hl => Text.dropReturn_of_trimmed (clean_of_mem_cleanLines hl).1

/-- **The lines of a clean source are the caller's, each clean**, but for a last one that comes to nothing. -/
theorem lines_clean (source : Text) : lines (clean source) =
    if ((lines source).map cleanLine).getLast? = some [] then ((lines source).map cleanLine).dropLast
    else (lines source).map cleanLine :=
  Text.lines_unlines (newline_not_mem_cleanLines source) (dropReturn_of_mem_cleanLines source)

theorem lines_clean_isPrefix (source : Text) : lines (clean source) <+: (lines source).map cleanLine := by
  rw [lines_clean]
  split
  · exact List.dropLast_prefix _
  · exact List.prefix_refl _

/-- A line that is left stands where the line stood that it comes from. -/
theorem exists_getElem?_of_clean {source line : Text} {i : Nat} (h : (lines (clean source))[i]? = some line) :
    ∃ own, (lines source)[i]? = some own ∧ cleanLine own = line := by
  obtain ⟨missing, hmissing⟩ := lines_clean_isPrefix source
  have hplace : ((lines source).map cleanLine)[i]? = some line := by
    rw [← hmissing, List.getElem?_append_left (List.getElem?_eq_some_iff.1 h).1]
    exact h
  rw [List.getElem?_map] at hplace
  exact Option.map_eq_some_iff.1 hplace

theorem length_lines_clean (source : Text) : (lines source).length =
    (lines (clean source)).length + if ((lines source).map cleanLine).getLast? = some [] then 1 else 0 := by
  rw [lines_clean]
  split
  · rename_i hlast
    have hpos := List.length_pos_of_mem (List.mem_of_getLast? hlast)
    rw [List.length_map] at hpos
    rw [List.length_dropLast, List.length_map]
    omega
  · rw [List.length_map, Nat.add_zero]

theorem map_cleanLine_lines_clean (source : Text) : (lines (clean source)).map cleanLine = lines (clean source) :=
  map_cleanLine_eq_self fun _ hl => clean_of_mem_cleanLines ((lines_clean_isPrefix source).subset hl)

/-- **Cleaning a clean source takes one line feed off its end**, if there is one. -/
theorem clean_clean (source : Text) : clean (clean source) =
    if (clean source).getLast? = some '\n' then (clean source).dropLast else clean source := by
  have h : clean (clean source) = unlines (lines (clean source)) := congrArg unlines (map_cleanLine_lines_clean source)
  rw [h, lines_clean]
  exact Text.unlines_dropLast (newline_not_mem_cleanLines source)

/-- A source that cleaning leaves as it is does not end in a line feed: the empty line after it would be lost. -/
theorem getLast?_of_clean_eq_self {source : Text} (h : clean source = source) : source.getLast? ≠ some '\n' := by
  intro hend
  rw [← h] at hend
  obtain ⟨first, -, hfirst⟩ := (Text.getLast?_unlines (newline_not_mem_cleanLines source)).1 hend
  have hlines : lines source = first := by
    have := lines_clean source
    rwa [h, hfirst, if_pos List.getLast?_concat, List.dropLast_concat] at this
  have hlength := congrArg List.length hfirst
  rw [hlines, List.length_map, List.length_append, List.length_singleton] at hlength
  omega

/-- **The sources that cleaning leaves as they are.** -/
theorem clean_eq_self_iff {source : Text} : clean source = source ↔
    source.getLast? ≠ some '\n' ∧ ∀ w ∈ pieces source, Trimmed w ∧ Unmarked w := by
  constructor
  · intro h
    refine ⟨getLast?_of_clean_eq_self h, ?_⟩
    by_cases hnil : (lines source).map cleanLine = []
    · have hsource : source = [] := by rw [← h, clean, hnil, Text.unlines_nil]
      rw [hsource]
      exact List.forall_mem_singleton.2 ⟨⟨by simp, by simp⟩, by simp [Unmarked]⟩
    · rw [← h, clean, Text.pieces_unlines hnil (newline_not_mem_cleanLines source)]
      exact fun w hw => clean_of_mem_cleanLines hw
  · rintro ⟨hend, hpieces⟩
    by_cases hnil : source = []
    · rw [hnil]
      rfl
    · have hreturn : ∀ w ∈ pieces source, dropReturn w = w := fun w hw => Text.dropReturn_of_trimmed (hpieces w hw).1
      rw [clean, Text.lines_eq_pieces hnil hend hreturn, map_cleanLine_eq_self hpieces, Text.unlines_pieces]

end Kernel

/-! ## The front-end's own normalization -/

namespace Frontend

open Text (lines pieces Trimmed)
open Grammar (CleanForm Blank)

/-- The text that the front-end `gates` leaves of a source to translate. -/
def GateList.normalized (source : Text) (target : Target) : Text := (gateList.normalize () ⟨source, target⟩).value.1

theorem GateList.normalized_eq (source : Text) (target : Target) : normalized source target = Kernel.clean source := rfl

theorem result_clean (source : Text) (target : Target) :
    gateList.pipeline.result (Kernel.clean source) target = gateList.pipeline.result source target := by
  obtain ⟨k, hk⟩ := Kernel.exists_bares_eq_map_lines (Kernel.clean source)
  rw [Kernel.map_cleanLine_lines_clean] at hk
  have hblank : ∀ l ∈ List.replicate k ([] : Text), l = [] := fun l hl => List.eq_of_mem_replicate hl
  rw [result_gateList, result_gateList, hk, Program.ofLines_append_blanks hblank, Program.ofLines_clean]

/-- **Normalization keeps lines in place and settles.**  Each line that it leaves is what the caller's line in its place
comes to.  The last line is missing if it comes to nothing, and no other.  A second normalization takes a line feed off the
end; a source is left as it is when it has none there and its pieces are trimmed and without comments.  What was normalized
compiles as the source does. -/
theorem normalized_in_place (source : Text) (target : Target) :
    let n := GateList.normalized source target
    (∀ (i : Nat) (line : Text), (lines n)[i]? = some line →
      ∃ own, (lines source)[i]? = some own ∧ CleanForm own line) ∧
    ((lines n).length = (lines source).length ∨ (lines n).length + 1 = (lines source).length) ∧
    ((lines n).length + 1 = (lines source).length ↔ ∃ last, (lines source).getLast? = some last ∧ Blank last) ∧
    GateList.normalized n target = (if n.getLast? = some '\n' then n.dropLast else n) ∧
    (n = source ↔ source.getLast? ≠ some '\n' ∧
      ∀ w ∈ pieces source, Trimmed w ∧ '#' ∉ w ∧ ¬ "//".toList <:+: w) ∧
    ∀ t, gateList.pipeline.result n t = gateList.pipeline.result source t := by
  intro n
  have hn : n = Kernel.clean source := GateList.normalized_eq source target
  have hlength := Kernel.length_lines_clean source
  have hlast : ((lines source).map Kernel.cleanLine).getLast? = some [] ↔
      ∃ last, (lines source).getLast? = some last ∧ Blank last := by
    simp only [List.getLast?_map, Option.map_eq_some_iff, Grammar.blank_iff]
  rw [← hn] at hlength
  refine ⟨fun i line hline => ?_, ?_, ?_, Kernel.clean_clean source, Kernel.clean_eq_self_iff, result_clean source⟩
  · obtain ⟨own, hown, rfl⟩ := Kernel.exists_getElem?_of_clean hline
    exact ⟨own, hown, Grammar.cleanForm_iff.2 rfl⟩
  · split at hlength
    · exact Or.inr hlength.symm
    · exact Or.inl hlength.symm
  · rw [← hlast]
    constructor
    · intro hmissing
      by_contra hno
      rw [if_neg hno] at hlength
      omega
    · intro hnil
      rw [if_pos hnil] at hlength
      exact hlength.symm

example : (GateList.normalized "H 0 # one\r\n \r\n".toList ⟨"sim".toList, none⟩ = "H 0\n".toList) ∧
    GateList.normalized "H 0\n".toList ⟨"sim".toList, none⟩ = "H 0".toList := by decide

end Frontend
end QuantumKernel
