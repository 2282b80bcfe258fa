import Mathlib.Data.List.TakeWhile
import QuantumKernel.Kernel.Grammar
/-! # Cleaning — a line comes to exactly one clean text

`cleanForm_iff`: what a line comes to by the rules of the grammar is what cleaning it leaves.  What follows a line does not
matter if only blanks stand in front of its comment (`cleanLine_append`), so neither does a carriage return, and the lines
of a clean source are what the caller's lines come to (`exists_bares_eq`).
-/
namespace QuantumKernel

/-! ## Blanks -/

namespace Text

theorem trimStart_eq_nil {t : Text} (h : ∀ c ∈ t, isBlank c = true) : trimStart t = [] := by
  have := trimStart_append h []
  rwa [List.append_nil] at this

theorem exists_trimStart (t : Text) : ∃ a, t = a ++ trimStart t ∧ ∀ c ∈ a, isBlank c = true :=
  ⟨t.takeWhile isBlank, List.takeWhile_append_dropWhile.symm, fun _ hc => List.mem_takeWhile_imp hc⟩

theorem exists_trimEnd (t : Text) : ∃ b, t = trimEnd t ++ b ∧ ∀ c ∈ b, isBlank c = true := by
  obtain ⟨a, ha, hblank⟩ := exists_trimStart t.reverse
  refine ⟨a.reverse, ?_, fun c hc => hblank c (List.mem_reverse.1 hc)⟩
  have := congrArg List.reverse ha
  rwa [List.reverse_reverse, List.reverse_append] at this

theorem isBlank_head?_trimStart (t : Text) : ∀ c ∈ (trimStart t).head?, isBlank c = false := by
  intro c hc
  have := List.head?_dropWhile_not isBlank t
  unfold trimStart at hc
  rw [Option.mem_def.1 hc] at this
  simpa using this

theorem isBlank_getLast?_trimEnd (t : Text) : ∀ c ∈ (trimEnd t).getLast?, isBlank c = false := by
  intro c hc
  unfold trimEnd at hc
  rw [List.getLast?_reverse] at hc
  exact isBlank_head?_trimStart t.reverse c hc

theorem trim_eq (t : Text) : ∃ a b, t = a ++ trim t ++ b ∧ ∀ c ∈ a ++ b, isBlank c = true := by
  obtain ⟨a, ha, hablank⟩ := exists_trimStart t
  obtain ⟨b, hb, hbblank⟩ := exists_trimEnd (trimStart t)
  refine ⟨a, b, ?_, fun c hc => (List.mem_append.1 hc).elim (hablank c) (hbblank c)⟩
  rw [List.append_assoc, trim, ← hb, ← ha]

/-- **Trimming leaves a trimmed text.** -/
theorem trimmed_trim (t : Text) : Trimmed (trim t) := by
  refine ⟨fun c hc => ?_, isBlank_getLast?_trimEnd _⟩
  obtain ⟨b, hb, -⟩ := exists_trimEnd (trimStart t)
  refine isBlank_head?_trimStart t c ?_
  have hhead : (trimEnd (trimStart t)).head? = some c := hc
  rw [hb, List.head?_append, hhead]
  rfl

theorem trimEnd_trimStart_append {b : Text} (hb : ∀ c ∈ b, isBlank c = true) (t : Text) :
    trimEnd (trimStart (t ++ b)) = trimEnd (trimStart t) := by
  unfold trimStart
  rw [List.dropWhile_append]
  split
  · rename_i h
    rw [List.isEmpty_iff.1 h]
    exact congrArg trimEnd (trimStart_eq_nil hb)
  · exact trimEnd_append hb _

/-- **Blanks around a text do not matter to trimming it.** -/
theorem trim_append_blanks {a b : Text} (ha : ∀ c ∈ a, isBlank c = true) (hb : ∀ c ∈ b, isBlank c = true) (t : Text) :
    trim (a ++ t ++ b) = trim t := by
  unfold trim
  rw [trimEnd_trimStart_append hb, trimStart_append ha]

theorem mem_of_mem_trim {c : Char} {t : Text} (h : c ∈ trim t) : c ∈ t := by
  obtain ⟨a, b, ht, -⟩ := trim_eq t
  rw [ht]
  exact List.mem_append_left _ (List.mem_append_right _ h)

end Text

namespace Grammar

theorem withoutBlanks_iff {text bare : Text} : WithoutBlanks text bare ↔ bare = Text.trim text := by
  constructor
  · rintro ⟨htrimmed, a, b, rfl, hblank⟩
    have ha : ∀ c ∈ a, Text.isBlank c = true := fun c hc => hblank c (List.mem_append_left _ hc)
    have hb : ∀ c ∈ b, Text.isBlank c = true := fun c hc => hblank c (List.mem_append_right _ hc)
    rw [Text.trim_append_blanks ha hb, Text.trim_eq_self htrimmed]
  · rintro rfl
    exact ⟨Text.trimmed_trim text, Text.trim_eq text⟩

/-! ## Comments -/

theorem beforeComment_stripComment : ∀ line : Text, BeforeComment line (Kernel.stripComment line)
  | [] => ⟨⟨[], rfl, Or.inl rfl⟩, fun _ _ _ h => absurd h (Nat.not_lt_zero _)⟩
  | c :: rest => by
    obtain ⟨⟨after, hrest, hafter⟩, hearlier⟩ := beforeComment_stripComment rest
    by_cases hc : Kernel.startsComment (c :: rest) = true
    · rw [Kernel.stripComment_of_startsComment hc]
      exact ⟨⟨c :: rest, rfl, Or.inr hc⟩, fun _ _ _ h => absurd h (Nat.not_lt_zero _)⟩
    · -- a marker that is earlier in the longer line starts at its first character, or in the rest
      have hstrip : Kernel.stripComment (c :: rest) = c :: Kernel.stripComment rest := if_neg hc
      rw [hstrip]
      refine ⟨⟨after, by rw [List.cons_append, ← hrest], hafter⟩, fun a b hab hlen => ?_⟩
      cases a with
      | nil =>
        rw [List.nil_append] at hab
        rw [← hab]
        simpa using hc
      | cons d a =>
        rw [List.cons_append, List.cons.injEq] at hab
        exact hearlier a b hab.2 (by simpa using hlen)

/-- A comment starts in one place: no part before it is longer than another. -/
theorem BeforeComment.length_le {line before other : Text} (h : BeforeComment line before)
    (ho : BeforeComment line other) : before.length ≤ other.length := by
  obtain ⟨⟨rest, hbefore, -⟩, hearlier⟩ := h
  obtain ⟨⟨after, hother, hafter⟩, -⟩ := ho
  by_contra hlt
  have hno := hearlier other after hother (Nat.lt_of_not_le hlt)
  rcases hafter with rfl | hafter
  · have hlen := congrArg List.length (hother.symm.trans hbefore)
    simp only [List.length_append, List.length_nil] at hlen
    omega
  · rw [hno] at hafter
    cases hafter

theorem beforeComment_iff {line before : Text} : BeforeComment line before ↔ before = Kernel.stripComment line := by
  constructor
  · intro h
    have hstrip := beforeComment_stripComment line
    obtain ⟨rest, hrest, -⟩ := h.1
    obtain ⟨after, hafter, -⟩ := hstrip.1
    exact List.append_inj_left (hrest.symm.trans hafter)
      (Nat.le_antisymm (h.length_le hstrip) (hstrip.length_le h))
  · rintro rfl
    exact beforeComment_stripComment line

/-- **A line comes to its clean line and to nothing else.** -/
theorem cleanForm_iff {line bare : Text} : CleanForm line bare ↔ bare = Kernel.cleanLine line := by
  constructor
  · rintro ⟨before, hbefore, hbare⟩
    rw [withoutBlanks_iff.1 hbare, beforeComment_iff.1 hbefore, Kernel.cleanLine]
  · rintro rfl
    exact ⟨_, beforeComment_stripComment line, withoutBlanks_iff.2 rfl⟩

end Grammar

/-! ## Clean lines -/

namespace Kernel

theorem trimmed_cleanLine (line : Text) : Text.Trimmed (cleanLine line) := Text.trimmed_trim _

theorem mem_of_mem_stripComment {c : Char} {line : Text} (h : c ∈ stripComment line) : c ∈ line := by
  obtain ⟨⟨rest, hline, -⟩, -⟩ := Grammar.beforeComment_stripComment line
  rw [hline]
  exact List.mem_append_left _ h

theorem mem_of_mem_cleanLine {c : Char} {line : Text} (h : c ∈ cleanLine line) : c ∈ line :=
  mem_of_mem_stripComment (Text.mem_of_mem_trim h)

/-- A comment starts with a `#`, or with a slash and a slash after it. -/
theorem startsComment_cons (c : Char) (rest : Text) :
    startsComment (c :: rest) = (c == '#' || c == '/' && rest.head? == some '/') := by
  by_cases hhash : c = '#'
  · rw [hhash]
    rfl
  · by_cases hslash : c = '/'
    · rw [hslash]
      cases rest with
      | nil => rfl
      | cons d rest => by_cases hd : d = '/' <;> simp [startsComment, hd]
    · simp [startsComment, hhash, hslash]

/-- Whether a character is the mark that a comment starts with, or half of one. -/
def isMark (c : Char) : Bool := c == '#' || c == '/'

theorem startsComment_of_not_isMark {c : Char} (h : isMark c = false) (rest : Text) :
    startsComment (c :: rest) = false := by
  obtain ⟨hhash, hslash⟩ := Bool.or_eq_false_iff.1 h
  rw [startsComment_cons, hhash, hslash]
  rfl

/-- A text without marks has no comment. -/
theorem stripComment_eq_self : ∀ {t : Text}, (∀ c ∈ t, isMark c = false) → stripComment t = t
  | [], _ => rfl
  | c :: t, h => by
    have hc := startsComment_of_not_isMark (h c (List.mem_cons_self ..)) t
    have ht := stripComment_eq_self fun d hd => h d (List.mem_cons_of_mem _ hd)
    rw [stripComment, hc, ht]
    rfl

theorem isMark_eq_false {f : Char → Bool} (hhash : f '#' = false) (hslash : f '/' = false) {c : Char} (h : f c = true) :
    isMark c = false := by
  refine Bool.or_eq_false_iff.2 ⟨beq_eq_false_iff_ne.2 fun hc => ?_, beq_eq_false_iff_ne.2 fun hc => ?_⟩
  · rw [hc, hhash] at h
    cases h
  · rw [hc, hslash] at h
    cases h

theorem isMark_of_isBlank {c : Char} (h : Text.isBlank c = true) : isMark c = false :=
  isMark_eq_false (by decide) (by decide) h

/-- A text that does not start with a slash completes no comment marker. -/
theorem startsComment_append {t : Text} (ht : ∀ d ∈ t.head?, d ≠ '/') (c : Char) (rest : Text) :
    startsComment (c :: (rest ++ t)) = startsComment (c :: rest) := by
  rw [startsComment_cons, startsComment_cons]
  cases rest with
  | cons d rest => rfl
  | nil =>
    have hhead : (t.head? == some '/') = false := beq_eq_false_iff_ne.2 fun h => ht '/' h rfl
    rw [List.nil_append, hhead]
    rfl

/-- A text put after a line is part of the comment of the line, or else is cut at a comment of its own. -/
theorem stripComment_append {t : Text} (ht : ∀ d ∈ t.head?, d ≠ '/') : ∀ line : Text,
    ∃ rest, stripComment (line ++ t) = stripComment line ++ rest ∧ (rest = [] ∨ rest = stripComment t)
  | [] => ⟨stripComment t, rfl, Or.inr rfl⟩
  | c :: line => by
    obtain ⟨rest, hline, hrest⟩ := stripComment_append ht line
    rw [List.cons_append, stripComment, stripComment, startsComment_append ht]
    split
    · exact ⟨[], rfl, Or.inl rfl⟩
    · exact ⟨rest, by rw [hline, List.cons_append], hrest⟩

/-- **What follows a line does not matter if only blanks stand in front of its comment.** -/
theorem cleanLine_append {t : Text} (ht : ∀ d ∈ t.head?, d ≠ '/') (hblank : ∀ c ∈ stripComment t, Text.isBlank c = true)
    (line : Text) : cleanLine (line ++ t) = cleanLine line := by
  obtain ⟨rest, hline, hrest⟩ := stripComment_append ht line
  have hrestblank : ∀ c ∈ rest, Text.isBlank c = true := by
    rcases hrest with rfl | rfl
    · exact List.forall_mem_nil _
    · exact hblank
  unfold cleanLine
  rw [hline]
  exact Text.trim_append_blanks (a := []) (List.forall_mem_nil _) hrestblank _

theorem stripComment_of_blanks {b : Text} (hb : ∀ c ∈ b, Text.isBlank c = true) : stripComment b = b :=
  stripComment_eq_self fun c hc => isMark_of_isBlank (hb c hc)

theorem ne_slash_of_isBlank {c : Char} (h : Text.isBlank c = true) : c ≠ '/' := by
  rintro rfl
  exact absurd h (by decide)

theorem cleanLine_append_blanks {b : Text} (hb : ∀ c ∈ b, Text.isBlank c = true) (line : Text) :
    cleanLine (line ++ b) = cleanLine line := by
  refine cleanLine_append (fun d hd => ne_slash_of_isBlank (hb d (List.mem_of_mem_head? hd))) ?_ line
  rwa [stripComment_of_blanks hb]

theorem cleanLine_dropReturn (line : Text) : cleanLine (Text.dropReturn line) = cleanLine line := by
  unfold Text.dropReturn
  split
  · rename_i h
    have hline : line.dropLast ++ ['\r'] = line := List.dropLast_append_getLast? _ h
    conv => rhs; rw [← hline]
    refine (cleanLine_append_blanks (fun c hc => ?_) _).symm
    rw [List.mem_singleton.1 hc]
    decide
  · rfl

theorem dropReturn_cleanLine (line : Text) : Text.dropReturn (cleanLine line) = cleanLine line := by
  unfold Text.dropReturn
  rw [if_neg]
  intro h
  have := (trimmed_cleanLine line).2 '\r' h
  revert this
  decide

end Kernel

/-! ## Clean sources -/

namespace Text

/-- Of pieces, their lines miss at most an empty last one; the carriage returns that they miss do not matter to `f`. -/
theorem exists_map_linesOfPieces (f : Text → Text) (hnil : f [] = []) : ∀ ws : List Text,
    (∀ w ∈ ws, f (dropReturn w) = f w) → ∃ k, ws.map f = (linesOfPieces ws).map f ++ List.replicate k []
  | [], _ => ⟨0, rfl⟩
  | [last], _ => by
    by_cases hlast : last = []
    · subst hlast
      exact ⟨1, by simp [linesOfPieces, hnil]⟩
    · exact ⟨0, by simp [linesOfPieces, hlast]⟩
  | w :: v :: ws, h => by
    obtain ⟨k, hk⟩ := exists_map_linesOfPieces f hnil (v :: ws) fun u hu => h u (List.mem_cons_of_mem _ hu)
    refine ⟨k, ?_⟩
    show f w :: (v :: ws).map f = _
    rw [linesOfPieces_cons_of_ne_nil w (List.cons_ne_nil v ws), hk, List.map_cons,
      h w (List.mem_cons_self ..), List.cons_append]

theorem mem_of_mem_linesOfPieces {c : Char} : ∀ {ws : List Text} {l : Text}, l ∈ linesOfPieces ws → c ∈ l →
    ∃ w ∈ ws, c ∈ w
  | [last], l, hl, hc => by
    unfold linesOfPieces at hl
    split at hl
    · cases hl
    · exact ⟨l, hl, hc⟩
  | w :: v :: ws, l, hl, hc => by
    rw [linesOfPieces_cons_of_ne_nil w (List.cons_ne_nil v ws)] at hl
    rcases List.mem_cons.1 hl with rfl | hl
    · refine ⟨w, List.mem_cons_self .., ?_⟩
      unfold dropReturn at hc
      split at hc
      · exact List.dropLast_subset w hc
      · exact hc
    · obtain ⟨u, hu, hcu⟩ := mem_of_mem_linesOfPieces hl hc
      exact ⟨u, List.mem_cons_of_mem _ hu, hcu⟩

theorem newline_not_mem_of_mem_lines {t l : Text} (h : l ∈ lines t) : '\n' ∉ l := by
  intro hn
  obtain ⟨w, hw, hnw⟩ := mem_of_mem_linesOfPieces h hn
  exact newline_not_mem_of_mem_pieces hw hnw

end Text

namespace Kernel

/-- What the caller's lines come to, in order. -/
def bares (source : Text) : List Text := (Text.pieces source).map cleanLine

theorem exists_lines_unlines {ls : List Text} (hnewline : ∀ l ∈ ls, '\n' ∉ l)
    (hreturn : ∀ l ∈ ls, Text.dropReturn l = l) : ∃ k, ls = Text.lines (Text.unlines ls) ++ List.replicate k [] := by
  by_cases hls : ls = []
  · subst hls
    exact ⟨0, rfl⟩
  · have hid := Text.exists_map_linesOfPieces id rfl ls hreturn
    rw [List.map_id, List.map_id] at hid
    rw [Text.lines, Text.pieces_unlines hls hnewline]
    exact hid

/-- A final empty line is none to the source's lines, and their carriage returns come to nothing. -/
theorem exists_bares_eq_map_lines (source : Text) :
    ∃ k, bares source = (Text.lines source).map cleanLine ++ List.replicate k [] :=
  Text.exists_map_linesOfPieces cleanLine rfl (Text.pieces source) fun w _ => cleanLine_dropReturn w

/-- **Cleaning a source keeps its lines in place**: what the caller's lines come to is the lines of the clean source,
and empty lines after them. -/
theorem exists_bares_eq (source : Text) : ∃ k, bares source = Text.lines (clean source) ++ List.replicate k [] := by
  obtain ⟨j, hj⟩ := exists_bares_eq_map_lines source
  have hnewline : ∀ l ∈ (Text.lines source).map cleanLine, '\n' ∉ l := by
    intro l hl hn
    obtain ⟨line, hline, rfl⟩ := List.mem_map.1 hl
    exact Text.newline_not_mem_of_mem_lines hline (mem_of_mem_cleanLine hn)
  have hreturn : ∀ l ∈ (Text.lines source).map cleanLine, Text.dropReturn l = l := by
    intro l hl
    obtain ⟨line, -, rfl⟩ := List.mem_map.1 hl
    exact dropReturn_cleanLine line
  obtain ⟨k, hk⟩ := exists_lines_unlines hnewline hreturn
  refine ⟨k + j, ?_⟩
  calc bares source = (Text.lines source).map cleanLine ++ List.replicate j [] := hj
    _ = Text.lines (clean source) ++ List.replicate k [] ++ List.replicate j [] := by rw [clean, ← hk]
    _ = Text.lines (clean source) ++ List.replicate (k + j) [] := by
      rw [List.append_assoc, List.replicate_append_replicate]

end Kernel
end QuantumKernel
