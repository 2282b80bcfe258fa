import QuantumKernel.Proofs.Outcome
/-! # Concatenation — one kernel after another

The lines of two sources with a line feed between them are the lines of the first and then those of the second
(`bares_append_newline`).  So reading goes on with the second source from the program of the first, and what it adds to that
program does not depend on it (`extend_append_program`): the same instructions, or the same error further down.
-/
namespace QuantumKernel

namespace Text

theorem length_pieces : ∀ t : Text, (pieces t).length = t.count '\n' + 1
  | [] => rfl
  | c :: t => by
    have ih := length_pieces t
    unfold pieces at ih ⊢
    rw [splitWhere_cons, List.count_cons]
    split
    · rw [List.length_cons, ih]
    · rw [List.length_modifyHead, ih]

end Text

namespace Kernel

theorem bares_append_newline (a b : Text) : bares (a ++ '\n' :: b) = bares a ++ bares b := by
  rw [bares, Text.pieces_append_newline, List.map_append, bares, bares]

theorem length_bares (source : Text) : (bares source).length = source.count '\n' + 1 := by
  rw [bares, List.length_map, Text.length_pieces]

end Kernel

/-! ## Reading on -/

/-- The same rejection, some lines further down. -/
def Rejection.below (lines : Nat) : Rejection → Rejection
  | .badLine number line fault => .badLine (number + lines) line fault
  | rejection => rejection

namespace Program

/-- The instructions of one program and then those of another, over the qubits of both. -/
def append (p q : Program) : Program := ⟨p.instructions ++ q.instructions, max p.qubitsUsed q.qubitsUsed⟩

@[simp] theorem instructions_append (p q : Program) : (p.append q).instructions = p.instructions ++ q.instructions := rfl

theorem max_assoc_uint64 (a b c : UInt64) : max (max a b) c = max a (max b c) := by
  apply UInt64.toNat_inj.1
  simp only [UInt64.toNat_max]
  omega

@[simp] theorem append_empty (p : Program) : p.append empty = p := by
  have hused : max p.qubitsUsed 0 = p.qubitsUsed := by
    apply UInt64.toNat_inj.1
    rw [UInt64.toNat_max]
    exact Nat.max_eq_left (Nat.zero_le _)
  cases p
  simp only [append, instructions_empty, qubitsUsed_empty, List.append_nil, hused]

theorem max_spanWith (used more : UInt64) (qubits : List Qubit) :
    max used (spanWith more qubits) = spanWith (max used more) qubits := by
  unfold spanWith
  cases qubits.max? with
  | none => rfl
  | some largest => exact (max_assoc_uint64 used more (largest + 1)).symm

theorem append_push (p q : Program) (i : Instruction) : p.append (q.push i) = (p.append q).push i := by
  simp only [append, push, max_spanWith, List.append_assoc]

/-- **What lines add to a program does not depend on it**: the same instructions, or the same error as far down as they
are. -/
theorem extend_append_program (p : Program) (k : Nat) : ∀ (ls : List Text) (q : Program) (n : Nat),
    (p.append q).extend (n + k) ls = ((q.extend n ls).map p.append).mapError (Rejection.below k)
  | [], _, _ => rfl
  | line :: ls, q, n => by
    -- an instruction on the line is pushed on `q`, behind everything in `p`, and so `q` has to vary
    have hnumber : n + k + 1 = n + 1 + k := by omega
    by_cases hline : line = []
    · subst hline
      rw [extend_cons_nil, extend_cons_nil, hnumber, extend_append_program p k ls]
    · cases hread : Instruction.ofLine line with
      | error fault =>
        rw [extend_cons_of_error hread hline, extend_cons_of_error hread hline]
        rfl
      | ok i =>
        rw [extend_cons_of_ok hread hline, extend_cons_of_ok hread hline, ← append_push, hnumber,
          extend_append_program p k ls]

/-- What is read of a source's lines, with or without instructions. -/
def read (source : Text) : Except Rejection Program := empty.extend 1 (Kernel.bares source)

/-- **Reading one source after another is reading each, the second as far down as the first is long.** -/
theorem read_append_newline (a b : Text) : read (a ++ '\n' :: b) =
    (read a).bind fun p => ((read b).map p.append).mapError (Rejection.below (a.count '\n' + 1)) := by
  unfold read
  rw [Kernel.bares_append_newline, extend_append, Kernel.length_bares]
  refine congrArg (Except.bind _) (funext fun p => ?_)
  rw [← extend_append_program, append_empty]

section ReadAppend

variable {a b : Text} {p q : Program} {rejection : Rejection}

theorem read_append_of_error (ha : read a = .error rejection) : read (a ++ '\n' :: b) = .error rejection := by
  rw [read_append_newline, ha, Except.bind]

theorem read_append_of_second_error (ha : read a = .ok p) (hb : read b = .error rejection) :
    read (a ++ '\n' :: b) = .error (rejection.below (a.count '\n' + 1)) := by
  rw [read_append_newline, ha, Except.bind, hb, Except.map, Except.mapError]

theorem read_append_of_ok (ha : read a = .ok p) (hb : read b = .ok q) :
    read (a ++ '\n' :: b) = .ok (p.append q) := by
  rw [read_append_newline, ha, Except.bind, hb, Except.map, Except.mapError]

end ReadAppend

/-- What ends a reading is a bad line. -/
theorem exists_of_read_eq_error {source : Text} {rejection : Rejection} (h : read source = .error rejection) :
    ∃ number line fault, rejection = .badLine number line fault := by
  unfold read at h
  rcases accepted_or_fault (Kernel.bares source) with hall | ⟨before, line, after, fault, hbares, hbefore, hline, hf⟩
  · obtain ⟨is, his⟩ := Grammar.exists_standTogether hall
    rw [extend_of_standTogether his] at h
    cases h
  · rw [hbares, extend_of_fault hbefore hline hf] at h
    exact ⟨_, line, fault, (Except.error.inj h).symm⟩

theorem eq_empty_of_read {source : Text} {p : Program} (h : read source = .ok p) (hp : p.instructions = []) :
    p = empty :=
  (wellFormed_of_extend wellFormed_empty h).eq_of_instructions_eq wellFormed_empty hp

/-- Nothing is read of two sources exactly when nothing is read of either. -/
theorem read_append_eq_empty_iff {a b : Text} :
    read (a ++ '\n' :: b) = .ok empty ↔ read a = .ok empty ∧ read b = .ok empty := by
  constructor
  · intro h
    cases ha : read a with
    | error rejection =>
      rw [read_append_of_error ha] at h
      cases h
    | ok p =>
      cases hb : read b with
      | error rejection =>
        rw [read_append_of_second_error ha hb] at h
        cases h
      | ok q =>
        rw [read_append_of_ok ha hb] at h
        have hnil : p.instructions ++ q.instructions = [] := by
          rw [← instructions_append, Except.ok.inj h, instructions_empty]
        obtain ⟨hp, hq⟩ := List.append_eq_nil_iff.1 hnil
        rw [eq_empty_of_read ha hp, eq_empty_of_read hb hq]
        exact ⟨rfl, rfl⟩
  · rintro ⟨ha, hb⟩
    rw [read_append_of_ok ha hb, append_empty]

end Program

/-! ## The results -/

namespace Frontend

/-- The error of a kernel without instructions. -/
def GateList.noInstructions : CompileError := .compilation name [] none "kernel has no instructions".toList

/-- What a result adds to a kernel that the source is a part of: its program, and nothing where there are no
instructions. -/
inductive Adds : Except CompileError Program → Program → Prop
  | program {p : Program} : Adds (.ok p) p
  | nothing : Adds (.error GateList.noInstructions) .empty

/-- What comes of one source after another, when the first has `k` line feeds: the first source's bad line, or the second's
with its number in the whole, or the two programs as one, or nothing where neither has an instruction. -/
inductive Joined (k : Nat) (first second : Except CompileError Program) : Except CompileError Program → Prop
  | firstBad {frontend fragment reason : Text} {number : Nat} :
      first = .error (.compilation frontend fragment (some number) reason) → Joined k first second first
  | secondBad {p : Program} {frontend fragment reason : Text} {number : Nat} :
      Adds first p → second = .error (.compilation frontend fragment (some number) reason) →
      Joined k first second (.error (.compilation frontend fragment (some (number + k + 1)) reason))
  | program {p q : Program} :
      Adds first p → Adds second q → p.instructions ++ q.instructions ≠ [] →
      Joined k first second (.ok ⟨p.instructions ++ q.instructions, max p.qubitsUsed q.qubitsUsed⟩)
  | nothing :
      first = .error GateList.noInstructions → second = .error GateList.noInstructions →
      Joined k first second (.error GateList.noInstructions)

/-- Without a limit all that was read is accepted, if it has an instruction. -/
theorem result_unlimited (source name : Text) : gateList.pipeline.result source ⟨name, none⟩ =
    match Program.read source with
    | .error rejection => .error (rejection.toError GateList.name ⟨name, none⟩)
    | .ok p => if p.instructions = [] then .error GateList.noInstructions else .ok p := by
  rw [result_gateList, Program.ofLines, Program.read]
  cases Program.empty.extend 1 (Kernel.bares source) with
  | error rejection => rfl
  | ok p => by_cases hp : p.instructions = [] <;> simp only [hp, if_true, if_false] <;> rfl

variable {source name : Text}

theorem result_of_read_error {number : Nat} {line : Text} {fault : Fault}
    (h : Program.read source = .error (.badLine number line fault)) :
    gateList.pipeline.result source ⟨name, none⟩ =
      .error (.compilation GateList.name line (some number) fault.reason) := by
  rw [result_unlimited, h]
  rfl

theorem result_of_read_program {p : Program} (h : Program.read source = .ok p) (hp : p.instructions ≠ []) :
    gateList.pipeline.result source ⟨name, none⟩ = .ok p := by
  simp only [result_unlimited, h, if_neg hp]

theorem result_eq_noInstructions_iff :
    gateList.pipeline.result source ⟨name, none⟩ = .error GateList.noInstructions ↔
      Program.read source = .ok .empty := by
  constructor
  · intro h
    cases hread : Program.read source with
    | error rejection =>
      obtain ⟨number, line, fault, rfl⟩ := Program.exists_of_read_eq_error hread
      rw [result_of_read_error hread] at h
      cases h
    | ok p =>
      by_cases hp : p.instructions = []
      · rw [Program.eq_empty_of_read hread hp]
      · rw [result_of_read_program hread hp] at h
        cases h
  · intro h
    rw [result_unlimited, h]
    rfl

theorem adds_of_read {p : Program} (h : Program.read source = .ok p) :
    Adds (gateList.pipeline.result source ⟨name, none⟩) p := by
  by_cases hp : p.instructions = []
  · obtain rfl := Program.eq_empty_of_read h hp
    rw [result_eq_noInstructions_iff.2 h]
    exact .nothing
  · rw [result_of_read_program h hp]
    exact .program

/-- **Compiling one source after another joins what comes of each**, for any target without a limit.  There are no
instructions in the whole exactly when there are none in either part. -/
theorem joined_append_newline (a b name : Text) :
    Joined (a.count '\n') (gateList.pipeline.result a ⟨name, none⟩) (gateList.pipeline.result b ⟨name, none⟩)
        (gateList.pipeline.result (a ++ '\n' :: b) ⟨name, none⟩) ∧
      (gateList.pipeline.result (a ++ '\n' :: b) ⟨name, none⟩ = .error GateList.noInstructions ↔
        gateList.pipeline.result a ⟨name, none⟩ = .error GateList.noInstructions ∧
          gateList.pipeline.result b ⟨name, none⟩ = .error GateList.noInstructions) := by
  refine ⟨?_, by simp only [result_eq_noInstructions_iff, Program.read_append_eq_empty_iff]⟩
  cases ha : Program.read a with
  | error rejection =>
    obtain ⟨number, line, fault, rfl⟩ := Program.exists_of_read_eq_error ha
    rw [result_of_read_error (Program.read_append_of_error ha), ← result_of_read_error ha]
    exact .firstBad (result_of_read_error ha)
  | ok p =>
    cases hb : Program.read b with
    | error rejection =>
      obtain ⟨number, line, fault, rfl⟩ := Program.exists_of_read_eq_error hb
      rw [result_of_read_error (Program.read_append_of_second_error ha hb)]
      exact .secondBad (adds_of_read ha) (result_of_read_error hb)
    | ok q =>
      have hjoin := Program.read_append_of_ok ha hb
      by_cases hnil : (p.append q).instructions = []
      · rw [Program.eq_empty_of_read hjoin hnil] at hjoin
        obtain ⟨ha, hb⟩ := Program.read_append_eq_empty_iff.1 hjoin
        rw [result_eq_noInstructions_iff.2 hjoin]
        exact .nothing (result_eq_noInstructions_iff.2 ha) (result_eq_noInstructions_iff.2 hb)
      · rw [result_of_read_program hjoin hnil]
        exact .program (adds_of_read ha) (adds_of_read hb) hnil

example : gateList.pipeline.result "X 3\r\n// done\r\n\nfoo 1".toList ⟨"sim".toList, none⟩ =
    .error (.compilation GateList.name "foo 1".toList (some 4) "unknown gate `foo`".toList) := by rfl

end Frontend
end QuantumKernel
