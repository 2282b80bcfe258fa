import QuantumKernel.Proofs.Outcome
/-! # RoundTrip — a program's own text, read again

The text of a program has a line for each of its instructions, and each line is clean and has the mnemonic and the indices
for tokens.  So it stands for its own instruction if that is well formed, and for none otherwise (`denotes_text_iff`), and
compiling the text gives the program back or points at the first instruction that is not well formed.  Programs with
different instructions have different texts (`instructions_eq_of_text_eq`).
-/
namespace QuantumKernel

open Grammar (CleanForm TokensOf Names Denotes StandsFor)

/-! ## One instruction -/

namespace Instruction

theorem text_eq (i : Instruction) : i.text = i.gate.mnemonic ++ i.qubits.flatMap fun q => ' ' :: q.text := rfl

/-- The characters that an instruction's text is made of. -/
def isPlain (c : Char) : Bool := c.isUpper || c.isDigit || c == ' '

theorem isPlain_of_mem_text {i : Instruction} {c : Char} (h : c ∈ i.text) : isPlain c = true := by
  rcases List.mem_append.1 h with h | h
  · have hmnemonic : i.gate.mnemonic.all isPlain = true := by cases i.gate <;> decide
    exact List.all_eq_true.1 hmnemonic c h
  · obtain ⟨q, -, hc⟩ := List.mem_flatMap.1 h
    rcases List.mem_cons.1 hc with rfl | hc
    · decide
    · simp [isPlain, Qubit.isDigit_of_mem_text hc]

theorem newline_not_mem_text (i : Instruction) : '\n' ∉ i.text := fun h =>
  absurd (isPlain_of_mem_text h) (by decide)

theorem isMark_of_mem_text {i : Instruction} {c : Char} (h : c ∈ i.text) : Kernel.isMark c = false :=
  Kernel.isMark_eq_false (by decide) (by decide) (isPlain_of_mem_text h)

theorem isBlank_of_isDigit {c : Char} (h : c.isDigit = true) : Text.isBlank c = false := by
  have hrange : 48 ≤ c.toNat ∧ c.toNat ≤ 57 := by simpa [Char.isDigit, UInt32.le_iff_toNat_le] using h
  simp only [Text.isBlank, Text.blankRanges, List.any_cons, List.any_nil, Bool.or_false, Bool.or_eq_false_iff,
    decide_eq_false_iff_not]
  omega

theorem getLast?_append_operands {t : Text} (ht : ∀ c ∈ t.getLast?, Text.isBlank c = false) : ∀ qubits : List Qubit,
    ∀ c ∈ (t ++ qubits.flatMap fun q => ' ' :: q.text).getLast?, Text.isBlank c = false
  | [] => by rwa [List.flatMap_nil, List.append_nil]
  | q :: qubits => by
    rw [List.flatMap_cons, ← List.append_assoc]
    refine getLast?_append_operands (fun c hc => ?_) qubits
    rw [List.getLast?_append_cons, List.getLast?_cons_of_ne_nil q.text_ne_nil] at hc
    exact isBlank_of_isDigit (Qubit.isDigit_of_mem_text (List.mem_of_getLast? hc))

theorem isToken_mnemonic (g : Gate) : Grammar.IsToken g.mnemonic := by
  have hne : g.mnemonic ≠ [] := by cases g <;> decide
  have hnone : g.mnemonic.all (fun c => !Kernel.isSeparator c) = true := by cases g <;> decide
  exact ⟨hne, fun c hc => by simpa using List.all_eq_true.1 hnone c hc⟩

theorem isBlank_of_mem_token {word : Text} (h : Grammar.IsToken word) {c : Char} (hc : c ∈ word) :
    Text.isBlank c = false := (Bool.or_eq_false_iff.1 (h.2 c hc)).1

theorem trimmed_text (i : Instruction) : Text.Trimmed i.text := by
  have hmnemonic := isToken_mnemonic i.gate
  constructor
  · intro c hc
    rw [text_eq, List.head?_append_of_ne_nil _ hmnemonic.1] at hc
    exact isBlank_of_mem_token hmnemonic (List.mem_of_mem_head? hc)
  · exact getLast?_append_operands (fun c hc => isBlank_of_mem_token hmnemonic (List.mem_of_getLast? hc)) i.qubits

/-- **An instruction's text is clean.** -/
theorem cleanForm_text (i : Instruction) : CleanForm i.text i.text := by
  rw [Grammar.cleanForm_iff, Kernel.cleanLine,
    Kernel.stripComment_eq_self fun c hc => isMark_of_mem_text hc, Text.trim_eq_self i.trimmed_text]

theorem text_ne_nil (i : Instruction) : i.text ≠ [] := by
  intro h
  exact (isToken_mnemonic i.gate).1 (List.append_eq_nil_iff.1 h).1

theorem tokensOf_operands : ∀ qubits : List Qubit,
    TokensOf (qubits.flatMap fun q => ' ' :: q.text) (qubits.map Qubit.text)
  | [] => .nil (List.forall_mem_nil _)
  | q :: qubits => by
    have htoken : Grammar.IsToken q.text := by
      refine ⟨q.text_ne_nil, fun c hc => ?_⟩
      have hdigit := Qubit.isDigit_of_mem_text hc
      have hcomma : c ≠ ',' := by rintro rfl; revert hdigit; decide
      simp [Kernel.isSeparator, isBlank_of_isDigit hdigit, hcomma]
    have hnext : ∀ c ∈ (qubits.flatMap fun q => ' ' :: q.text).head?, Kernel.isSeparator c = true := by
      cases qubits with
      | nil => simp
      | cons r qubits => intro c hc; rw [← Option.some.inj hc]; decide
    rw [List.flatMap_cons, List.map_cons, List.cons_append]
    exact .cons_separator (by decide) (.token_append htoken hnext (tokensOf_operands qubits))

/-- **The tokens of an instruction's text are its mnemonic and its indices.** -/
theorem tokensOf_text (i : Instruction) : TokensOf i.text (i.gate.mnemonic :: i.qubits.map Qubit.text) := by
  refine .token_append (isToken_mnemonic i.gate) ?_ (tokensOf_operands i.qubits)
  cases i.qubits with
  | nil => simp
  | cons q qubits => intro c hc; rw [← Option.some.inj hc]; decide

theorem names_text_iff {q r : Qubit} : Names q.text r ↔ q = r ∧ q.toNat < Qubit.bound := by
  rw [Grammar.names_iff, Qubit.ofToken?_text]
  by_cases hbound : q.toNat < Qubit.bound
  · simp [hbound]
  · simp [hbound]

theorem forall₂_names_text_iff {qs rs : List Qubit} :
    List.Forall₂ Names (qs.map Qubit.text) rs ↔ qs = rs ∧ ∀ q ∈ qs, q.toNat < Qubit.bound := by
  rw [List.forall₂_map_left_iff]
  constructor
  · intro h
    induction h with
    | nil => exact ⟨rfl, List.forall_mem_nil _⟩
    | cons hq _ ih =>
      obtain ⟨rfl, hbound⟩ := names_text_iff.1 hq
      exact ⟨by rw [ih.1], List.forall_mem_cons.2 ⟨hbound, ih.2⟩⟩
  · rintro ⟨rfl, hbound⟩
    exact List.forall₂_same.2 fun q hq => names_text_iff.2 ⟨rfl, hbound q hq⟩

/-- **An instruction's text stands for the instruction itself, if it is well formed, and for nothing else.** -/
theorem denotes_text_iff {i j : Instruction} : Denotes i.text j ↔ i = j ∧ i.WellFormed := by
  constructor
  · rintro ⟨hwf, name, operands, htokens, hgate, hnames⟩
    have hsame := (Grammar.tokensOf_iff.1 htokens).trans (Grammar.tokensOf_iff.1 i.tokensOf_text).symm
    obtain ⟨rfl, rfl⟩ := List.cons.inj hsame
    rw [Grammar.namesGate_iff, Gate.ofMnemonic?_mnemonic] at hgate
    have hqubits := (forall₂_names_text_iff.1 hnames).1
    have hij : i = j := by
      cases i
      cases j
      rw [Instruction.mk.injEq]
      exact ⟨Option.some.inj hgate, hqubits⟩
    exact ⟨hij, hij ▸ hwf⟩
  · rintro ⟨rfl, hwf⟩
    exact ⟨hwf, _, _, i.tokensOf_text, Grammar.namesGate_iff.2 (Gate.ofMnemonic?_mnemonic _),
      forall₂_names_text_iff.2 ⟨rfl, hwf.2.2⟩⟩

end Instruction

/-! ## A whole program -/

namespace Program

open Frontend (GateList.name Outcome)

/-- What a program's own text comes to for a target, whatever the program's fields are: nothing to read, the first
instruction that is not well formed, or the same instructions with their qubits counted anew. -/
structure RereadAs (p : Program) (target : Target) (result : Except CompileError Program) : Prop where
  nothing : p.instructions = [] →
    result = .error (.compilation GateList.name [] none "kernel has no instructions".toList)
  illFormed : ∀ before i after, p.instructions = before ++ i :: after → (∀ j ∈ before, j.WellFormed) → ¬ i.WellFormed →
    ∃ reason, result = .error (.compilation GateList.name i.text (some (before.length + 1)) reason)
  wellFormed : p.instructions ≠ [] → (∀ i ∈ p.instructions, i.WellFormed) →
    ∃ largest ∈ p.indices, (∀ q ∈ p.indices, q ≤ largest) ∧
      ((∃ n ∈ target.qubits, n.toNat < largest.toNat + 1) →
        ∃ reason, result = .error (.unsupportedTarget GateList.name target.name reason)) ∧
      ((∀ n ∈ target.qubits, largest.toNat + 1 ≤ n.toNat) →
        ∃ used : UInt64, used.toNat = largest.toNat + 1 ∧ result = .ok ⟨p.instructions, used⟩)

theorem pieces_text {p : Program} (hp : p.instructions ≠ []) : Text.pieces p.text = p.instructions.map Instruction.text := by
  refine Text.pieces_unlines (by simpa using hp) fun l hl => ?_
  obtain ⟨i, -, rfl⟩ := List.mem_map.1 hl
  exact i.newline_not_mem_text

/-- The text of a program has a line for each instruction, and the text without any has one empty line. -/
theorem exists_pieces_text (p : Program) :
    ∃ k, Text.pieces p.text = p.instructions.map Instruction.text ++ List.replicate k [] := by
  by_cases hp : p.instructions = []
  · exact ⟨1, by rw [text, hp]; rfl⟩
  · exact ⟨0, by rw [pieces_text hp, List.replicate_zero, List.append_nil]⟩

variable {p : Program} {source : Text} {k : Nat}

theorem firstBad_of_pieces (h : Text.pieces source = p.instructions.map Instruction.text ++ List.replicate k [])
    {before after : List Instruction} {i : Instruction} (hp : p.instructions = before ++ i :: after)
    (hbefore : ∀ j ∈ before, j.WellFormed) (hi : ¬ i.WellFormed) :
    Grammar.FirstBad source (before.length + 1) i.text := by
  refine ⟨before.map Instruction.text, i.text, after.map Instruction.text ++ List.replicate k [], ?_, ?_, i.cleanForm_text,
    i.text_ne_nil, ?_, ?_⟩
  · rw [h, hp, List.map_append, List.map_cons, List.append_assoc, List.cons_append]
  · rw [List.length_map]
  · rintro ⟨j, hj⟩
    exact hi (Instruction.denotes_text_iff.1 hj).2
  · refine List.forall_mem_map.2 fun j hj => Or.inr ⟨j, j.text, j.cleanForm_text, ?_⟩
    exact Instruction.denotes_text_iff.2 ⟨rfl, hbefore j hj⟩

theorem standsFor_of_pieces (h : Text.pieces source = p.instructions.map Instruction.text ++ List.replicate k [])
    (hne : p.instructions ≠ []) (hwf : ∀ i ∈ p.instructions, i.WellFormed) : StandsFor source p.instructions := by
  have htexts : (p.instructions.map Instruction.text).filter (· ≠ []) = p.instructions.map Instruction.text := by
    refine List.filter_eq_self.2 (List.forall_mem_map.2 fun i _ => ?_)
    simpa using i.text_ne_nil
  have hblanks : (List.replicate k ([] : Text)).filter (· ≠ []) = [] :=
    List.filter_eq_nil_iff.2 fun l hl => by simp [List.eq_of_mem_replicate hl]
  refine ⟨Text.pieces source, List.forall₂_same.2 fun l hl => ?_, ?_, hne⟩
  · rw [h] at hl
    rcases List.mem_append.1 hl with hl | hl
    · obtain ⟨i, -, rfl⟩ := List.mem_map.1 hl
      exact i.cleanForm_text
    · rw [List.eq_of_mem_replicate hl]
      exact Grammar.cleanForm_iff.2 rfl
  · rw [h, List.filter_append, htexts, hblanks, List.append_nil, List.forall₂_map_left_iff]
    exact List.forall₂_same.2 fun i hi => Instruction.denotes_text_iff.2 ⟨rfl, hwf i hi⟩

/-- A source with the lines of a program's text, and empty lines after them, comes to what that program does. -/
theorem rereadAs_of_pieces (h : Text.pieces source = p.instructions.map Instruction.text ++ List.replicate k [])
    (target : Target) : p.RereadAs target (Frontend.gateList.pipeline.result source target) where
  nothing hnil := by
    refine Outcome.result_eq (.blank fun line hline => Grammar.blank_iff.2 ?_)
    rw [h, hnil, List.map_nil, List.nil_append] at hline
    rw [List.eq_of_mem_replicate hline]
    rfl
  illFormed before i after hp hbefore hi := by
    have hbad := firstBad_of_pieces h hp hbefore hi
    obtain ⟨fault, hf⟩ := hbad.exists_fault
    exact ⟨_, Outcome.result_eq (.badLine hbad hf)⟩
  wellFormed hne hwf := by
    have hstands := standsFor_of_pieces h hne hwf
    -- the count of `p` may be wrong, so the outcome is that of its instructions counted anew
    have hof := wellFormed_ofInstructions hwf
    rw [← instructions_ofInstructions p.instructions] at hstands hne
    obtain ⟨largest, hmem, hle, hused⟩ := hof.used hne
    have hindices : (ofInstructions p.instructions).indices = p.indices := by
      rw [indices, instructions_ofInstructions, indices]
    rw [hindices] at hmem hle
    refine ⟨largest, hmem, hle, ?_, fun hfits => ⟨_, hused, ?_⟩⟩
    · rintro ⟨n, hn, hlt⟩
      rw [← hused, ← UInt64.lt_iff_toNat_lt] at hlt
      exact ⟨_, Outcome.result_eq (.tooManyQubits hstands hof hn hlt)⟩
    · have hcapacity : ∀ n ∈ target.qubits, (ofInstructions p.instructions).qubitsUsed ≤ n := by
        intro n hn
        rw [UInt64.le_iff_toNat_le, hused]
        exact hfits n hn
      rw [Outcome.result_eq (.program hstands hof hcapacity)]
      have hinstructions := instructions_ofInstructions p.instructions
      cases hprogram : ofInstructions p.instructions
      rw [hprogram] at hinstructions
      rw [← hinstructions]

/-- **A program's text compiles to the program**, or to the error that the program deserves, with a line feed at its end
or without. -/
theorem text_rereadAs (p : Program) (target : Target) :
    p.RereadAs target (Frontend.gateList.pipeline.result p.text target) ∧
      p.RereadAs target (Frontend.gateList.pipeline.result (p.text ++ ['\n']) target) := by
  obtain ⟨k, hk⟩ := p.exists_pieces_text
  have hnewline : Text.pieces (p.text ++ ['\n']) = p.instructions.map Instruction.text ++ List.replicate (k + 1) [] := by
    rw [Text.pieces_append_newline, hk, Text.pieces_nil, List.append_assoc, ← List.replicate_succ']
  exact ⟨rereadAs_of_pieces hk target, rereadAs_of_pieces hnewline target⟩

end Program

/-! ## Different programs -/

namespace Instruction

/-- **An instruction can be told from its text**, well formed or not. -/
theorem text_inj {i j : Instruction} : i.text = j.text ↔ i = j := by
  refine ⟨fun h => ?_, fun h => h ▸ rfl⟩
  have hi := Grammar.tokensOf_iff.1 i.tokensOf_text
  have hj := Grammar.tokensOf_iff.1 j.tokensOf_text
  rw [h, ← hj] at hi
  obtain ⟨hmnemonic, hqubits⟩ := List.cons.inj hi
  have hgate : some i.gate = some j.gate := by
    rw [← Gate.ofMnemonic?_mnemonic i.gate, hmnemonic, Gate.ofMnemonic?_mnemonic]
  have htext : Function.Injective Qubit.text := fun p q hpq => Qubit.text_inj.1 hpq
  cases i
  cases j
  rw [Instruction.mk.injEq]
  exact ⟨Option.some.inj hgate, htext.list_map hqubits⟩

end Instruction

namespace Program

theorem nil_not_mem_pieces_text {p : Program} (hp : p.instructions ≠ []) : [] ∉ Text.pieces p.text := by
  rw [pieces_text hp]
  intro h
  obtain ⟨i, -, hi⟩ := List.mem_map.1 h
  exact i.text_ne_nil hi

theorem text_eq_nil_iff {p : Program} : p.text = [] ↔ p.instructions = [] := by
  constructor
  · intro h
    by_contra hp
    have hnil := nil_not_mem_pieces_text hp
    rw [h, Text.pieces_nil] at hnil
    exact hnil (List.mem_singleton.2 rfl)
  · intro h
    rw [text, h]
    rfl

theorem instructions_eq_of_text_eq {p q : Program} (h : p.text = q.text) : p.instructions = q.instructions := by
  by_cases hp : p.instructions = []
  · rw [hp, eq_comm, ← text_eq_nil_iff, ← h, text_eq_nil_iff, hp]
  · have hq : q.instructions ≠ [] := by rwa [ne_eq, ← text_eq_nil_iff, ← h, text_eq_nil_iff]
    have htext : Function.Injective Instruction.text := fun i j hij => Instruction.text_inj.1 hij
    refine htext.list_map ?_
    rw [← pieces_text hp, h, pieces_text hq]

/-- A program's text has no empty line, so no line feed ends it. -/
theorem getLast?_text (p : Program) : p.text.getLast? ≠ some '\n' := by
  intro h
  have hsplit : p.text = p.text.dropLast ++ ['\n'] := (List.dropLast_append_getLast? _ h).symm
  have hp : p.instructions ≠ [] := by
    rw [ne_eq, ← text_eq_nil_iff]
    intro hnil
    rw [hnil] at h
    cases h
  have hnil := nil_not_mem_pieces_text hp
  rw [hsplit, Text.pieces_append_newline, Text.pieces_nil] at hnil
  exact hnil (List.mem_append_right _ (List.mem_singleton.2 rfl))

/-- **A program's text loses nothing about its instructions**, whatever the program's fields are: it has one line for each,
which is that instruction's own text, and the count of qubits does not show in it. -/
theorem text_loses_nothing (p : Program) :
    (∀ q : Program, p.text = q.text ↔ p.instructions = q.instructions) ∧
    (p.text = [] ↔ p.instructions = []) ∧
    (p.instructions ≠ [] → (Text.pieces p.text).length = p.instructions.length ∧
      ∀ k : Nat, (Text.pieces p.text)[k]? = p.instructions[k]?.map Instruction.text) ∧
    (∀ used, { p with qubitsUsed := used }.text = p.text) ∧
    p.text.getLast? ≠ some '\n' := by
  refine ⟨fun q => ⟨instructions_eq_of_text_eq, fun h => by rw [text, h, text]⟩, text_eq_nil_iff, fun hp => ?_,
    fun used => rfl, p.getLast?_text⟩
  rw [pieces_text hp]
  exact ⟨List.length_map _, fun k => by rw [List.getElem?_map]⟩

end Program
end QuantumKernel
