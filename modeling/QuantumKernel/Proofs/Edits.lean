import Mathlib.Logic.Relation
import QuantumKernel.Proofs.Concatenation
/-! # Edits — what may be done to a source without a difference

Blanks around a line, a comment after it, a carriage return at its end and blank lines at the end of the source leave every
line's clean form as it is, and in its place (`Edit.exists_bares_eq`).  So they make no difference to the result, one after
another as often as they are done.  Only a line feed ends a line or a comment.
-/
namespace QuantumKernel

namespace Grammar

/-! ## Edits -/

/-- A line starts after a text that is empty or ends with a line feed. -/
def AtLineStart (before : Text) : Prop := ∀ c ∈ before.getLast?, c = '\n'

/-- A line ends in front of a text that is empty or starts with a line feed, which may have a carriage return before it. -/
def AtLineEnd (after : Text) : Prop := after = [] ∨ ∃ rest, after = '\n' :: rest ∨ after = '\r' :: '\n' :: rest

/-- Blanks within one line. -/
def Spacing (t : Text) : Prop := ∀ c ∈ t, Text.isBlank c = true ∧ c ≠ '\n'

/-- One edit of a source: spacing at the start or the end of a line, a comment at its end, a carriage return in front of
its line feed, or blank lines at the end of the source. -/
inductive Edit : Text → Text → Prop
  | indent {before spacing after : Text} : AtLineStart before → Spacing spacing →
      Edit (before ++ after) (before ++ spacing ++ after)
  | trail {before spacing after : Text} : AtLineEnd after → Spacing spacing →
      Edit (before ++ after) (before ++ spacing ++ after)
  | hashComment {before comment after : Text} : AtLineEnd after → '\n' ∉ comment →
      Edit (before ++ after) (before ++ ('#' :: comment) ++ after)
  | slashComment {before comment after : Text} : AtLineEnd after → '\n' ∉ comment →
      Edit (before ++ after) (before ++ (' ' :: '/' :: '/' :: comment) ++ after)
  | carriageReturn {before after : Text} : Edit (before ++ '\n' :: after) (before ++ '\r' :: '\n' :: after)
  | blankLines {source : Text} {lines : List Text} : (∀ l ∈ lines, '\n' ∉ l ∧ Blank l) →
      Edit source (source ++ '\n' :: Text.unlines lines)

end Grammar

open Grammar (AtLineStart AtLineEnd CleanForm Denotes)

/-! ## One line of a source -/

namespace Text

theorem pieces_cons (c : Char) (t : Text) :
    pieces (c :: t) = if c = '\n' then [] :: pieces t else (pieces t).modifyHead (c :: ·) := by
  simp only [pieces, splitWhere_cons, beq_iff_eq]

/-- What is put after a text lengthens its last line. -/
theorem exists_pieces_append : ∀ a : Text, ∃ above line, ∀ t, '\n' ∉ t → pieces (a ++ t) = above ++ [line ++ t]
  | [] => ⟨[], [], fun _ ht => pieces_of_not_mem ht⟩
  | c :: a => by
    obtain ⟨above, line, h⟩ := exists_pieces_append a
    by_cases hc : c = '\n'
    · exact ⟨[] :: above, line, fun t ht => by rw [List.cons_append, pieces_cons, if_pos hc, h t ht, List.cons_append]⟩
    · cases above with
      | nil => exact ⟨[], c :: line, fun t ht => by rw [List.cons_append, pieces_cons, if_neg hc, h t ht]; rfl⟩
      | cons first above =>
        exact ⟨(c :: first) :: above, line, fun t ht => by rw [List.cons_append, pieces_cons, if_neg hc, h t ht]; rfl⟩

/-- What is put in front of a text lengthens its first line. -/
theorem pieces_append_of_not_mem : ∀ {t : Text}, '\n' ∉ t → ∀ b : Text,
    pieces (t ++ b) = (pieces b).modifyHead (t ++ ·)
  | [], _, b => by
    obtain ⟨line, below, h⟩ := List.exists_cons_of_ne_nil (pieces_ne_nil b)
    rw [List.nil_append, h]
    rfl
  | c :: t, ht, b => by
    obtain ⟨hc, ht⟩ := not_or.1 (mt List.mem_cons.2 ht)
    obtain ⟨line, below, h⟩ := List.exists_cons_of_ne_nil (pieces_ne_nil b)
    rw [List.cons_append, pieces_cons, if_neg (Ne.symm hc), pieces_append_of_not_mem ht, h]
    rfl

/-- At the end of a line there is one line that a text put there lengthens, in front of its carriage return. -/
theorem exists_pieces_atLineEnd (before : Text) {after : Text} (hafter : AtLineEnd after) :
    ∃ above line ending below, (∀ c ∈ ending, isBlank c = true) ∧
      ∀ t, '\n' ∉ t → pieces (before ++ t ++ after) = above ++ (line ++ t ++ ending) :: below := by
  obtain ⟨above, line, h⟩ := exists_pieces_append before
  rcases hafter with rfl | ⟨rest, rfl | rfl⟩
  · exact ⟨above, line, [], [], List.forall_mem_nil _, fun t ht => by rw [List.append_nil, List.append_nil, h t ht]⟩
  · refine ⟨above, line, [], pieces rest, List.forall_mem_nil _, fun t ht => ?_⟩
    rw [pieces_append_newline, h t ht, List.append_nil, List.append_assoc, List.singleton_append]
  · refine ⟨above, line, ['\r'], pieces rest, List.forall_mem_singleton.2 (by decide), fun t ht => ?_⟩
    have hreturn : '\n' ∉ t ++ ['\r'] := by simpa using ht
    have hsplit : before ++ t ++ '\r' :: '\n' :: rest = before ++ (t ++ ['\r']) ++ '\n' :: rest := by simp
    rw [hsplit, pieces_append_newline, h _ hreturn, List.append_assoc, List.singleton_append, List.append_assoc]

/-- At the start of a line there is one line that a text put there lengthens. -/
theorem exists_pieces_atLineStart {before : Text} (hbefore : AtLineStart before) (after : Text) :
    ∃ above line below, ∀ t, '\n' ∉ t → pieces (before ++ t ++ after) = above ++ (t ++ line) :: below := by
  obtain ⟨line, below, h⟩ := List.exists_cons_of_ne_nil (pieces_ne_nil after)
  have hline : ∀ t, '\n' ∉ t → pieces (t ++ after) = (t ++ line) :: below := fun t ht => by
    rw [pieces_append_of_not_mem ht, h]
    rfl
  rcases List.eq_nil_or_concat before with rfl | ⟨above, c, rfl⟩
  · exact ⟨[], line, below, fun t ht => by rw [List.nil_append, hline t ht, List.nil_append]⟩
  · obtain rfl : c = '\n' := hbefore c (by simp)
    refine ⟨pieces above, line, below, fun t ht => ?_⟩
    rw [List.append_assoc, List.concat_append, pieces_append_newline, hline t ht]

end Text

namespace Kernel

theorem startsComment_append_of_startsComment {t : Text} (h : startsComment t = true) (u : Text) :
    startsComment (t ++ u) = true := by
  cases t with
  | nil => cases h
  | cons c t =>
    rw [startsComment_cons] at h
    rw [List.cons_append, startsComment_cons]
    cases t with
    | nil => simpa using Or.inl (by simpa using h)
    | cons d t => exact h

/-- **A comment runs to the end of its line**, whatever is in it. -/
theorem stripComment_append_comment {mark : Text} (hmark : startsComment mark = true) (comment : Text) :
    ∀ line : Text, stripComment (line ++ mark ++ comment) = stripComment (line ++ mark)
  | [] => by
    rw [List.nil_append, stripComment_of_startsComment hmark,
      stripComment_of_startsComment (startsComment_append_of_startsComment hmark comment)]
  | c :: line => by
    have hstart : startsComment (c :: (line ++ mark ++ comment)) = startsComment (c :: (line ++ mark)) := by
      have hne : line ++ mark ≠ [] := by
        rintro h
        rw [(List.append_eq_nil_iff.1 h).2] at hmark
        cases hmark
      rw [startsComment_cons, startsComment_cons, List.head?_append_of_ne_nil _ hne]
    rw [List.cons_append, List.cons_append, stripComment, stripComment, hstart,
      stripComment_append_comment hmark comment line]

theorem stripComment_blanks_append : ∀ {b : Text}, (∀ c ∈ b, Text.isBlank c = true) → ∀ line : Text,
    stripComment (b ++ line) = b ++ stripComment line
  | [], _, _ => rfl
  | c :: b, hb, line => by
    have hc := startsComment_of_not_isMark (isMark_of_isBlank (hb c (List.mem_cons_self ..))) (b ++ line)
    rw [List.cons_append, stripComment, hc, stripComment_blanks_append (fun d hd => hb d (List.mem_cons_of_mem _ hd))]
    rfl

/-- **Blanks in front of a line do not matter.** -/
theorem cleanLine_blanks_append {b : Text} (hb : ∀ c ∈ b, Text.isBlank c = true) (line : Text) :
    cleanLine (b ++ line) = cleanLine line := by
  have htrim := Text.trim_append_blanks hb (List.forall_mem_nil _) (stripComment line)
  rwa [List.append_nil, ← stripComment_blanks_append hb] at htrim

/-! ## A source with one line changed -/

section OneLine

variable {after t u : Text}

theorem bares_of_atLineEnd (before : Text) (hafter : AtLineEnd after) (ht : '\n' ∉ t) (hu : '\n' ∉ u)
    (hclean : ∀ line, cleanLine (line ++ t) = cleanLine (line ++ u)) :
    bares (before ++ t ++ after) = bares (before ++ u ++ after) := by
  obtain ⟨above, line, ending, below, hending, h⟩ := Text.exists_pieces_atLineEnd before hafter
  simp only [bares, h t ht, h u hu, List.map_append, List.map_cons, cleanLine_append_blanks hending, hclean line]

theorem bares_of_atLineStart {before : Text} (hbefore : AtLineStart before) (ht : '\n' ∉ t)
    (hclean : ∀ line, cleanLine (t ++ line) = cleanLine line) :
    bares (before ++ t ++ after) = bares (before ++ after) := by
  obtain ⟨above, line, below, h⟩ := Text.exists_pieces_atLineStart hbefore after
  have hnone := h [] List.not_mem_nil
  rw [List.append_nil, List.nil_append] at hnone
  simp only [bares, h t ht, hnone, List.map_append, List.map_cons, hclean line]

/-- What is put at the end of a line does not matter if only blanks stand in front of its comment. -/
theorem bares_insert_atLineEnd (before : Text) (hafter : AtLineEnd after) (ht : '\n' ∉ t) (hslash : ∀ d ∈ t.head?, d ≠ '/')
    (hblank : ∀ c ∈ stripComment t, Text.isBlank c = true) :
    bares (before ++ t ++ after) = bares (before ++ after) := by
  have hclean : ∀ line, cleanLine (line ++ t) = cleanLine (line ++ []) := fun line => by
    rw [cleanLine_append hslash hblank, List.append_nil]
  have := bares_of_atLineEnd before hafter ht List.not_mem_nil hclean
  rwa [List.append_nil] at this

end OneLine

end Kernel

/-! ## Edits and results -/

namespace Grammar

theorem Spacing.isBlank {t : Text} (h : Spacing t) : ∀ c ∈ t, Text.isBlank c = true := fun c hc => (h c hc).1

theorem Spacing.newline_not_mem {t : Text} (h : Spacing t) : '\n' ∉ t := fun hn => (h _ hn).2 rfl

theorem bares_carriageReturn (before after : Text) :
    Kernel.bares (before ++ '\r' :: '\n' :: after) = Kernel.bares (before ++ '\n' :: after) := by
  have hend : AtLineEnd ('\n' :: after) := Or.inr ⟨after, Or.inl rfl⟩
  have hblank : ∀ c ∈ Kernel.stripComment ['\r'], Text.isBlank c = true := List.forall_mem_singleton.2 (by decide)
  have hinsert := Kernel.bares_insert_atLineEnd before hend (by decide) (by simp) hblank
  rwa [List.append_assoc] at hinsert

/-- Blank lines, joined and put after a source, come to nothing. -/
theorem exists_bares_blankLines (source : Text) {lines : List Text} (h : ∀ l ∈ lines, '\n' ∉ l ∧ Blank l) :
    ∃ blanks, (∀ l ∈ blanks, l = []) ∧
      Kernel.bares (source ++ '\n' :: Text.unlines lines) = Kernel.bares source ++ blanks := by
  refine ⟨_, ?_, Kernel.bares_append_newline source (Text.unlines lines)⟩
  by_cases hlines : lines = []
  · subst hlines
    decide
  · rw [Kernel.bares, Text.pieces_unlines hlines fun l hl => (h l hl).1]
    exact List.forall_mem_map.2 fun l hl => blank_iff.1 (h l hl).2

/-- **An edit leaves what the lines come to**, and at most adds blank lines after them. -/
theorem Edit.exists_bares_eq {source edited : Text} (h : Edit source edited) :
    ∃ blanks, (∀ l ∈ blanks, l = []) ∧ Kernel.bares edited = Kernel.bares source ++ blanks := by
  have hsame : Kernel.bares edited = Kernel.bares source →
      ∃ blanks, (∀ l ∈ blanks, l = []) ∧ Kernel.bares edited = Kernel.bares source ++ blanks :=
    fun h => ⟨[], List.forall_mem_nil _, by rw [h, List.append_nil]⟩
  cases h with
  | indent hbefore hspacing =>
    exact hsame (Kernel.bares_of_atLineStart hbefore hspacing.newline_not_mem
      (Kernel.cleanLine_blanks_append hspacing.isBlank))
  | trail hafter hspacing =>
    refine hsame (Kernel.bares_insert_atLineEnd _ hafter hspacing.newline_not_mem (fun d hd => ?_) ?_)
    · exact Kernel.ne_slash_of_isBlank (hspacing.isBlank d (List.mem_of_mem_head? hd))
    · rw [Kernel.stripComment_of_blanks hspacing.isBlank]
      exact hspacing.isBlank
  | @hashComment _ comment _ hafter hcomment =>
    have hnewline : '\n' ∉ '#' :: comment := by simpa using hcomment
    have hbefore : Kernel.stripComment ('#' :: comment) = [] := rfl
    refine hsame (Kernel.bares_insert_atLineEnd _ hafter hnewline (by simp) ?_)
    rw [hbefore]
    exact List.forall_mem_nil _
  | @slashComment _ comment _ hafter hcomment =>
    -- the blank keeps a slash at the end of the line apart from the comment's own
    have hnewline : '\n' ∉ ' ' :: '/' :: '/' :: comment := by simpa using hcomment
    have hbefore : Kernel.stripComment (' ' :: '/' :: '/' :: comment) = [' '] := rfl
    refine hsame (Kernel.bares_insert_atLineEnd _ hafter hnewline (by simp) ?_)
    rw [hbefore]
    exact List.forall_mem_singleton.2 (by decide)
  | carriageReturn => exact hsame (bares_carriageReturn _ _)
  | blankLines hlines => exact exists_bares_blankLines _ hlines

end Grammar

namespace Frontend

theorem result_of_edit {source edited : Text} (h : Grammar.Edit source edited) (target : Target) :
    gateList.pipeline.result edited target = gateList.pipeline.result source target := by
  obtain ⟨blanks, hblanks, hbares⟩ := h.exists_bares_eq
  rw [result_gateList, result_gateList, hbares, Program.ofLines_append_blanks hblanks]

theorem result_of_edits {source edited : Text} (h : Relation.ReflTransGen Grammar.Edit source edited) (target : Target) :
    gateList.pipeline.result edited target = gateList.pipeline.result source target := by
  induction h with
  | refl => rfl
  | tail _ hstep ih => rw [result_of_edit hstep, ih]

theorem result_of_comment {before mark comment after : Text} (hmark : mark = "#".toList ∨ mark = "//".toList)
    (hcomment : '\n' ∉ comment) (hafter : AtLineEnd after) (target : Target) :
    gateList.pipeline.result (before ++ mark ++ comment ++ after) target =
      gateList.pipeline.result (before ++ mark ++ after) target := by
  have hstart : Kernel.startsComment mark = true := by rcases hmark with rfl | rfl <;> decide
  have hnewline : '\n' ∉ mark := by rcases hmark with rfl | rfl <;> decide
  have hbares : Kernel.bares (before ++ (mark ++ comment) ++ after) = Kernel.bares (before ++ mark ++ after) := by
    refine Kernel.bares_of_atLineEnd before hafter (by simp [hnewline, hcomment]) hnewline fun line => ?_
    rw [Kernel.cleanLine, ← List.append_assoc, Kernel.stripComment_append_comment hstart, Kernel.cleanLine]
  rw [List.append_assoc before mark, result_gateList, result_gateList, hbares]

theorem exists_line_of_error {ls : List Text} (hls : ls ≠ []) (hnewline : ∀ l ∈ ls, '\n' ∉ l) {target : Target}
    {frontend fragment reason : Text} {number : Nat}
    (h : gateList.pipeline.result (Text.unlines ls) target =
      .error (.compilation frontend fragment (some number) reason)) :
    ∃ before line after, ls = before ++ line :: after ∧ number = before.length + 1 ∧ CleanForm line fragment := by
  cases result_eq_iff.1 h with
  | badLine hbad =>
    obtain ⟨before, line, after, hpieces, hnumber, hclean, -⟩ := hbad
    rw [Text.pieces_unlines hls hnewline] at hpieces
    exact ⟨before, line, after, hpieces, hnumber, hclean⟩

theorem exists_bares_of_ok {ls : List Text} (hls : ls ≠ []) (hnewline : ∀ l ∈ ls, '\n' ∉ l) {target : Target}
    {p : Program} (h : gateList.pipeline.result (Text.unlines ls) target = .ok p) :
    ∃ bares, List.Forall₂ CleanForm ls bares ∧ List.Forall₂ Denotes (bares.filter (· ≠ [])) p.instructions := by
  obtain ⟨bares, hbares, hdenotes, -⟩ := (result_eq_ok_iff.1 h).1
  rw [Text.pieces_unlines hls hnewline] at hbares
  exact ⟨bares, hbares, hdenotes⟩

/-- **Edits make no difference**, to a program or to any field of an error, however many are made.  And only a line feed
ends a comment or a line: what stands in a comment does not matter up to the next line feed, and of texts without line
feeds, joined by line feeds, each is one line to an error and to a program. -/
theorem edits_make_no_difference (source : Text) (target : Target) :
    (∀ edited, Relation.ReflTransGen Grammar.Edit source edited →
      gateList.pipeline.result edited target = gateList.pipeline.result source target) ∧
    (∀ before mark comment after, mark = "#".toList ∨ mark = "//".toList → '\n' ∉ comment → AtLineEnd after →
      source = before ++ mark ++ comment ++ after →
      gateList.pipeline.result source target = gateList.pipeline.result (before ++ mark ++ after) target) ∧
    ∀ ls, ls ≠ [] → (∀ l ∈ ls, '\n' ∉ l) → source = Text.unlines ls →
      (∀ frontend fragment number reason,
        gateList.pipeline.result source target = .error (.compilation frontend fragment (some number) reason) →
        ∃ before line after, ls = before ++ line :: after ∧ number = before.length + 1 ∧ CleanForm line fragment) ∧
      ∀ p, gateList.pipeline.result source target = .ok p →
        ∃ bares, List.Forall₂ CleanForm ls bares ∧ List.Forall₂ Denotes (bares.filter (· ≠ [])) p.instructions := by
  refine ⟨fun edited h => result_of_edits h target, ?_, ?_⟩
  · rintro before mark comment after hmark hcomment hafter rfl
    exact result_of_comment hmark hcomment hafter target
  · rintro ls hls hnewline rfl
    exact ⟨fun _ _ _ _ => exists_line_of_error hls hnewline, fun _ => exists_bares_of_ok hls hnewline⟩

example : gateList.pipeline.result "\u2028H 0 /\u0085// /#\r\x0B\r\n \n#".toList ⟨"sim".toList, none⟩ =
    gateList.pipeline.result "H 0 /".toList ⟨"sim".toList, none⟩ := by rfl

end Frontend
end QuantumKernel
