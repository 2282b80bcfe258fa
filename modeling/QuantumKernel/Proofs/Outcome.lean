import QuantumKernel.Pipeline.Basic
import QuantumKernel.Proofs.Reading
/-! # Outcome — which kernels are accepted, and where the others are rejected

What the front-end `gates` makes of a source depends on the caller's lines alone, each in its clean form
(`result_gateList`).  There are three cases: the first line with a fault decides, or every line is blank, or the lines
stand for a program, and the target decides.
-/
namespace QuantumKernel

open Grammar (CleanForm Denotes Accepted StandTogether StandsFor Fits)

/-! ## The caller's lines -/

namespace Grammar

/-- A caller's line is blank when nothing is left of it. -/
def Blank (line : Text) : Prop := CleanForm line []

/-- A caller's line holds an instruction when its clean form stands for it. -/
def Holds (line : Text) (i : Instruction) : Prop := ∃ bare, CleanForm line bare ∧ Denotes bare i

/-- The first line that is neither blank nor holds an instruction: its number, counted from 1, and its clean form. -/
def FirstBad (source : Text) (number : Nat) (fragment : Text) : Prop :=
  ∃ before line after, Text.pieces source = before ++ line :: after ∧ number = before.length + 1 ∧
    CleanForm line fragment ∧ fragment ≠ [] ∧ (¬ ∃ i, Denotes fragment i) ∧ ∀ l ∈ before, Blank l ∨ ∃ i, Holds l i

theorem blank_iff {line : Text} : Blank line ↔ Kernel.cleanLine line = [] := by
  rw [Blank, cleanForm_iff, eq_comm]

theorem holds_iff {line : Text} {i : Instruction} : Holds line i ↔ Denotes (Kernel.cleanLine line) i := by
  simp only [Holds, cleanForm_iff, exists_eq_left]

theorem accepted_cleanLine_iff {line : Text} :
    Accepted (Kernel.cleanLine line) ↔ Blank line ∨ ∃ i, Holds line i := by
  simp only [Accepted, blank_iff, holds_iff]

theorem firstBad_iff {source : Text} {number : Nat} {fragment : Text} : FirstBad source number fragment ↔
    ∃ before after, Kernel.bares source = before ++ fragment :: after ∧ number = before.length + 1 ∧
      (∀ l ∈ before, Accepted l) ∧ fragment ≠ [] ∧ ¬ ∃ i, Denotes fragment i := by
  constructor
  · rintro ⟨before, line, after, hpieces, rfl, hclean, hne, hbad, hbefore⟩
    obtain rfl := cleanForm_iff.1 hclean
    refine ⟨before.map Kernel.cleanLine, after.map Kernel.cleanLine, ?_, by rw [List.length_map], ?_, hne, hbad⟩
    · rw [Kernel.bares, hpieces, List.map_append, List.map_cons]
    · exact List.forall_mem_map.2 fun l hl => accepted_cleanLine_iff.2 (hbefore l hl)
  · rintro ⟨before, after, hbares, rfl, hbefore, hne, hbad⟩
    obtain ⟨first, others, hpieces, rfl, hothers⟩ := List.map_eq_append_iff.1 hbares
    obtain ⟨line, rest, rfl, rfl, -⟩ := List.map_eq_cons_iff.1 hothers
    refine ⟨first, line, rest, hpieces, by rw [List.length_map], cleanForm_iff.2 rfl, hne, hbad, ?_⟩
    exact fun l hl => accepted_cleanLine_iff.1 (hbefore _ (List.mem_map_of_mem hl))

theorem FirstBad.exists_fault {source : Text} {number : Nat} {fragment : Text} (h : FirstBad source number fragment) :
    ∃ fault, Instruction.ofLine fragment = .error fault := by
  obtain ⟨-, -, -, -, -, -, -, hbad, -⟩ := h
  exact Instruction.exists_ofLine_eq_error_iff.2 hbad

theorem FirstBad.exists_line {source : Text} {number : Nat} {fragment : Text} (h : FirstBad source number fragment) :
    ∃ line ∈ Text.pieces source, ¬ Blank line ∧ ¬ ∃ i, Holds line i := by
  obtain ⟨before, line, after, hpieces, -, hclean, hne, hbad, -⟩ := h
  obtain rfl := cleanForm_iff.1 hclean
  refine ⟨line, by rw [hpieces]; simp, fun hblank => hne (blank_iff.1 hblank), ?_⟩
  simpa only [holds_iff] using hbad

/-- Without a bad line every line is blank or holds an instruction. -/
theorem accepted_or_firstBad (source : Text) :
    (∀ l ∈ Kernel.bares source, Accepted l) ∨ ∃ number fragment, FirstBad source number fragment := by
  rcases Program.accepted_or_fault (Kernel.bares source) with h | ⟨before, line, after, fault, hbares, hbefore, hne, hf⟩
  · exact Or.inl h
  · have hbad := Instruction.exists_ofLine_eq_error_iff.1 ⟨fault, hf⟩
    exact Or.inr ⟨_, line, firstBad_iff.2 ⟨before, after, hbares, rfl, hbefore, hne, hbad⟩⟩

theorem forall_bares_iff {P : Text → Prop} {source : Text} :
    (∀ l ∈ Kernel.bares source, P l) ↔ ∀ line ∈ Text.pieces source, P (Kernel.cleanLine line) := List.forall_mem_map

theorem standsFor_iff {source : Text} {is : List Instruction} :
    StandsFor source is ↔ StandTogether (Kernel.bares source) is ∧ is ≠ [] := by
  have hbares : ∀ bares, List.Forall₂ CleanForm (Text.pieces source) bares ↔ bares = Kernel.bares source := by
    intro bares
    have hclean : (CleanForm : Text → Text → Prop) = fun line bare => Kernel.cleanLine line = bare := by
      funext line bare
      exact propext (cleanForm_iff.trans eq_comm)
    rw [hclean, ← List.forall₂_map_left_iff (R := Eq), List.forall₂_eq_eq_eq, Kernel.bares, eq_comm]
  simp only [StandsFor, StandTogether, hbares, exists_eq_left]

end Grammar

/-! ## The result -/

namespace Program

theorem ofLines_append_blanks {blanks : List Text} (h : ∀ l ∈ blanks, l = []) (ls : List Text) :
    ofLines (ls ++ blanks) = ofLines ls := by
  unfold ofLines
  rw [extend_append]
  cases empty.extend 1 ls with
  | error rejection => rfl
  | ok p =>
    simp only [Except.bind]
    rw [extend_blanks h]

theorem ofLines_clean (source : Text) : ofLines (Text.lines (Kernel.clean source)) = ofLines (Kernel.bares source) := by
  obtain ⟨k, hk⟩ := Kernel.exists_bares_eq source
  rw [hk, ofLines_append_blanks fun l hl => List.eq_of_mem_replicate hl]

end Program

namespace Frontend

/-- **What comes of a source is what comes of its clean lines.** -/
theorem result_gateList (source : Text) (target : Target) : gateList.pipeline.result source target =
    ((Program.ofLines (Kernel.bares source)).bind (Program.within target.qubits)).mapError
      (Rejection.toError GateList.name target) := by
  rw [← Program.ofLines_clean]
  exact GateList.value_translate ⟨Kernel.clean source, target⟩

/-- What comes of a source for a target: the caller's first bad line is reported, or that there is no instruction, or a
program, or that it needs more qubits than the target provides. -/
inductive Outcome (source : Text) (target : Target) : Except CompileError Program → Prop
  | badLine {number : Nat} {fragment : Text} {fault : Fault} :
      Grammar.FirstBad source number fragment → Instruction.ofLine fragment = .error fault →
      Outcome source target (.error (.compilation GateList.name fragment (some number) fault.reason))
  | blank : (∀ line ∈ Text.pieces source, Grammar.Blank line) →
      Outcome source target (.error (.compilation GateList.name [] none "kernel has no instructions".toList))
  | program {p : Program} :
      StandsFor source p.instructions → p.WellFormed → (∀ n ∈ target.qubits, p.qubitsUsed ≤ n) →
      Outcome source target (.ok p)
  | tooManyQubits {p : Program} {n : UInt64} :
      StandsFor source p.instructions → p.WellFormed → target.qubits = some n → n < p.qubitsUsed →
      Outcome source target (.error ((Rejection.tooManyQubits p.qubitsUsed n).toError GateList.name target))

variable {source : Text} {target : Target}

theorem ofLines_of_standsFor {p : Program} (h : StandsFor source p.instructions) (hp : p.WellFormed) :
    Program.ofLines (Kernel.bares source) = .ok p := by
  obtain ⟨his, hne⟩ := Grammar.standsFor_iff.1 h
  have hof := Program.wellFormed_ofInstructions his.wellFormed
  rw [Program.ofLines_eq_ok_iff, Program.extend_of_standTogether his]
  exact ⟨congrArg _ (hof.eq_of_instructions_eq hp (Program.instructions_ofInstructions _)), hne⟩

/-- **An outcome is the result.** -/
theorem Outcome.result_eq {r : Except CompileError Program} (h : Outcome source target r) :
    gateList.pipeline.result source target = r := by
  rw [result_gateList]
  cases h with
  | badLine hbad hf =>
    obtain ⟨before, after, hbares, rfl, hbefore, hne, -⟩ := Grammar.firstBad_iff.1 hbad
    rw [hbares, Program.ofLines, Program.extend_of_fault hbefore hne hf, Nat.add_comm]
    rfl
  | blank h =>
    have hblank : ∀ l ∈ Kernel.bares source, l = [] :=
      Grammar.forall_bares_iff.2 fun line hline => Grammar.blank_iff.1 (h line hline)
    rw [Program.ofLines, Program.extend_blanks hblank]
    rfl
  | program hstands hp hfits =>
    rw [ofLines_of_standsFor hstands hp, Except.bind, Program.within_eq_ok_iff.2 ⟨rfl, hfits⟩]
    rfl
  | tooManyQubits hstands hp hlimit hlt =>
    rw [ofLines_of_standsFor hstands hp, Except.bind, hlimit, Program.within, if_pos hlt]
    rfl

/-- **Every source has an outcome for every target.** -/
theorem outcome_result (source : Text) (target : Target) :
    Outcome source target (gateList.pipeline.result source target) := by
  -- an outcome is the result, whichever it is, so it is enough that there is one
  suffices h : ∃ r, Outcome source target r by
    obtain ⟨r, h⟩ := h
    rwa [h.result_eq]
  rcases Grammar.accepted_or_firstBad source with hall | ⟨number, fragment, hbad⟩
  · obtain ⟨is, his⟩ := Grammar.exists_standTogether hall
    by_cases hnil : is = []
    · refine ⟨_, .blank fun line hline => Grammar.blank_iff.2 ?_⟩
      exact Grammar.forall_bares_iff.1 (his.eq_nil_iff.1 hnil) line hline
    · have hp := Program.wellFormed_ofInstructions his.wellFormed
      have hstands : StandsFor source (Program.ofInstructions is).instructions := by
        rw [Program.instructions_ofInstructions]
        exact Grammar.standsFor_iff.2 ⟨his, hnil⟩
      by_cases hfits : ∀ n ∈ target.qubits, (Program.ofInstructions is).qubitsUsed ≤ n
      · exact ⟨_, .program hstands hp hfits⟩
      · push Not at hfits
        obtain ⟨n, hn, hlt⟩ := hfits
        exact ⟨_, .tooManyQubits hstands hp hn (UInt64.not_le.1 hlt)⟩
  · obtain ⟨fault, hf⟩ := hbad.exists_fault
    exact ⟨_, .badLine hbad hf⟩

theorem result_eq_iff {r : Except CompileError Program} :
    gateList.pipeline.result source target = r ↔ Outcome source target r :=
  ⟨fun h => h ▸ outcome_result source target, Outcome.result_eq⟩

theorem result_eq_ok_iff {p : Program} : gateList.pipeline.result source target = .ok p ↔
    StandsFor source p.instructions ∧ Fits target.qubits p.instructions ∧ p.WellFormed := by
  have hfits : StandsFor source p.instructions → p.WellFormed →
      ((∀ n ∈ target.qubits, p.qubitsUsed ≤ n) ↔ Fits target.qubits p.instructions) :=
    fun hstands hp => hp.fits_iff (Grammar.standsFor_iff.1 hstands).2
  rw [result_eq_iff]
  constructor
  · intro h
    cases h with
    | program hstands hp hle => exact ⟨hstands, (hfits hstands hp).1 hle, hp⟩
  · rintro ⟨hstands, hle, hp⟩
    exact .program hstands hp ((hfits hstands hp).2 hle)

/-- **The language of kernels is what is accepted.**  A source is accepted exactly when each of its lines is blank or
holds an instruction, some line is not blank, and the target's limit, if there is one, is above every index.  The program
then has the instructions that the source stands for, in order. -/
theorem accepts_exactly_language (source : Text) (target : Target) :
    ((∃ p, gateList.pipeline.result source target = .ok p) ↔
      (∀ line ∈ Text.pieces source, Grammar.Blank line ∨ ∃ i, Grammar.Holds line i) ∧
        (∃ line ∈ Text.pieces source, ¬ Grammar.Blank line) ∧
          ∀ limit ∈ target.qubits, ∀ line ∈ Text.pieces source, ∀ i, Grammar.Holds line i → ∀ q ∈ i.qubits, q < limit) ∧
      ∀ p, gateList.pipeline.result source target = .ok p ↔
        StandsFor source p.instructions ∧ Fits target.qubits p.instructions ∧ p.WellFormed := by
  refine ⟨?_, fun p => result_eq_ok_iff⟩
  simp only [Grammar.blank_iff, Grammar.holds_iff]
  constructor
  · rintro ⟨p, hp⟩
    obtain ⟨hstands, hfits, -⟩ := result_eq_ok_iff.1 hp
    obtain ⟨his, hne⟩ := Grammar.standsFor_iff.1 hstands
    refine ⟨Grammar.forall_bares_iff.1 his.accepted, ?_, ?_⟩
    · by_contra hnone
      push Not at hnone
      exact hne (his.eq_nil_iff.2 (Grammar.forall_bares_iff.2 hnone))
    · intro limit hlimit line hline i hi q hq
      obtain ⟨j, hj, hdenotes⟩ := his.exists_denotes (List.mem_map_of_mem hline) hi.ne_nil
      obtain rfl := hdenotes.unique hi
      exact hfits limit hlimit j hj q hq
  · rintro ⟨hall, ⟨line, hline, hblank⟩, hlimit⟩
    obtain ⟨is, his⟩ := Grammar.exists_standTogether (Grammar.forall_bares_iff.2 hall)
    have hne : is ≠ [] := by
      intro hnil
      exact hblank (Grammar.forall_bares_iff.1 (his.eq_nil_iff.1 hnil) line hline)
    have hp := Program.wellFormed_ofInstructions his.wellFormed
    refine ⟨.ofInstructions is, result_eq_ok_iff.2 ?_⟩
    rw [Program.instructions_ofInstructions]
    refine ⟨Grammar.standsFor_iff.2 ⟨his, hne⟩, fun limit hl i hi q hq => ?_, hp⟩
    obtain ⟨bare, hbare, hdenotes⟩ := his.exists_line hi
    obtain ⟨line, hline, rfl⟩ := List.mem_map.1 hbare
    exact hlimit limit hl line hline i hdenotes q hq

example : gateList.pipeline.result "\r\ncx q[01],\t0 # pair\n".toList ⟨"sim".toList, some 2⟩ =
    .ok ⟨[⟨.cnot, [1, 0]⟩], 2⟩ := by rfl

/-- **Errors point at the caller's first bad line.**  An error with a line is reported exactly where the first line is that
is neither blank nor holds an instruction, with what that line comes to; there is one whenever there is such a line, for
every target.  An error without a line is reported exactly when every line is blank. -/
theorem errors_point_at_first_bad_line (source : Text) (target : Target) :
    (∀ number fragment, (∃ frontend reason,
        gateList.pipeline.result source target = .error (.compilation frontend fragment (some number) reason)) ↔
      Grammar.FirstBad source number fragment) ∧
    ((∃ line ∈ Text.pieces source, ¬ Grammar.Blank line ∧ ¬ ∃ i, Grammar.Holds line i) ↔ ∃ number fragment reason,
      gateList.pipeline.result source target = .error (.compilation GateList.name fragment (some number) reason)) ∧
    ∀ fragment, (∃ frontend reason,
        gateList.pipeline.result source target = .error (.compilation frontend fragment none reason)) ↔
      fragment = [] ∧ ∀ line ∈ Text.pieces source, Grammar.Blank line := by
  simp only [result_eq_iff]
  refine ⟨fun number fragment => ⟨?_, fun hbad => ?_⟩, ⟨?_, ?_⟩, fun fragment => ⟨?_, ?_⟩⟩
  · rintro ⟨frontend, reason, h⟩
    cases h with
    | badLine hbad => exact hbad
  · obtain ⟨fault, hf⟩ := hbad.exists_fault
    exact ⟨_, _, .badLine hbad hf⟩
  · rintro ⟨line, hline, hbad⟩
    rw [← not_or, ← Grammar.accepted_cleanLine_iff] at hbad
    rcases Grammar.accepted_or_firstBad source with hall | ⟨number, fragment, hfirst⟩
    · exact absurd (hall _ (List.mem_map_of_mem hline)) hbad
    · obtain ⟨fault, hf⟩ := hfirst.exists_fault
      exact ⟨_, _, _, .badLine hfirst hf⟩
  · rintro ⟨number, fragment, reason, h⟩
    cases h with
    | badLine hbad => exact hbad.exists_line
  · rintro ⟨frontend, reason, h⟩
    cases h with
    | blank hblank => exact ⟨rfl, hblank⟩
  · rintro ⟨rfl, hblank⟩
    exact ⟨_, _, .blank hblank⟩

example : gateList.pipeline.result "H 0\n\n  H 0 0 // twice\nX".toList ⟨"sim".toList, some 0⟩ =
    .error (.compilation GateList.name "H 0 0".toList (some 3) "qubit 0 used twice".toList) := by rfl

end Frontend
end QuantumKernel
