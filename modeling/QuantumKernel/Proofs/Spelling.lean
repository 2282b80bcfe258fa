import QuantumKernel.Proofs.Outcome
/-! # Spelling — sources that say the same in other words

A gate may be named in letters of either case, a qubit in three forms and with zeros in front, and tokens may be kept apart
by any separators.  Sources that differ in this alone read alike, line by line (`Program.extend_agree`): they come to the same
program, or to an error of the same kind at the same line.
-/
namespace QuantumKernel

namespace Grammar

/-! ## Saying the same -/

/-- First tokens that are equal but for the case of letters, or that both name the controlled not. -/
def SameGateName (x y : Text) : Prop :=
  x.map Char.toUpper = y.map Char.toUpper ∨ NamesGate x .cnot ∧ NamesGate y .cnot

/-- Operands that name the same qubit, or none. -/
def SameOperand (x y : Text) : Prop := (∃ q, Names x q ∧ Names y q) ∨ (¬ ∃ q, Names x q) ∧ ¬ ∃ q, Names y q

/-- As many tokens, of which the first say the same as names of gates, and the others as operands. -/
inductive SameTokens : List Text → List Text → Prop
  | none : SameTokens [] []
  | some {x y : Text} {xs ys : List Text} :
      SameGateName x y → List.Forall₂ SameOperand xs ys → SameTokens (x :: xs) (y :: ys)

/-- Lines that both come to nothing, or both to something, with tokens that say the same. -/
def SameLine (l m : Text) : Prop :=
  ∃ x y xs ys, CleanForm l x ∧ CleanForm m y ∧ (x = [] ↔ y = []) ∧ TokensOf x xs ∧ TokensOf y ys ∧ SameTokens xs ys

/-- As many lines that say the same, whether or not an empty text after the last line feed counts for a line. -/
def SameSource (a b : Text) : Prop :=
  List.Forall₂ SameLine (Text.pieces a) (Text.pieces b) ∨ List.Forall₂ SameLine (Text.lines a) (Text.lines b)

theorem SameGateName.ofMnemonic?_eq {x y : Text} (h : SameGateName x y) : Gate.ofMnemonic? x = Gate.ofMnemonic? y := by
  rcases h with h | ⟨hx, hy⟩
  · rw [Gate.ofMnemonic?, h, Gate.ofMnemonic?]
  · rw [namesGate_iff.1 hx, namesGate_iff.1 hy]

theorem SameOperand.ofToken?_eq {x y : Text} (h : SameOperand x y) : Qubit.ofToken? x = Qubit.ofToken? y := by
  have hnone : ∀ {z}, (¬ ∃ q, Names z q) → Qubit.ofToken? z = none := fun hz =>
    Option.eq_none_iff_forall_not_mem.2 fun q hq => hz ⟨q, names_iff.2 hq⟩
  rcases h with ⟨q, hx, hy⟩ | ⟨hx, hy⟩
  · rw [names_iff.1 hx, names_iff.1 hy]
  · rw [hnone hx, hnone hy]

end Grammar

open Grammar (CleanForm TokensOf SameOperand SameTokens SameLine SameSource)

/-! ## Agreeing up to the error -/

/-- The same value, or errors that are related. -/
inductive Agree {ε α : Type} (R : ε → ε → Prop) : Except ε α → Except ε α → Prop
  | ok (a : α) : Agree R (.ok a) (.ok a)
  | error {e f : ε} : R e f → Agree R (.error e) (.error f)

namespace Agree

variable {ε δ α β : Type} {R : ε → ε → Prop} {S : δ → δ → Prop} {x y : Except ε α}

theorem map (h : Agree R x y) (f : α → β) : Agree R (x.map f) (y.map f) := by
  cases h with
  | ok a => exact .ok (f a)
  | error he => exact .error he

theorem bind (h : Agree R x y) {f : α → Except ε β} (hf : ∀ a, Agree R (f a) (f a)) : Agree R (x.bind f) (y.bind f) := by
  cases h with
  | ok a => exact hf a
  | error he => exact .error he

theorem mapError (h : Agree R x y) {f : ε → δ} (hf : ∀ {d e}, R d e → S (f d) (f e)) :
    Agree S (x.mapError f) (y.mapError f) := by
  cases h with
  | ok a => exact .ok a
  | error he => exact .error (hf he)

theorem refl (hR : ∀ e, R e e) : ∀ x : Except ε α, Agree R x x
  | .ok a => .ok a
  | .error e => .error (hR e)

end Agree

/-- Faults of one kind, about the same qubit, or the same gate and number of operands. -/
inductive Fault.SameKind : Fault → Fault → Prop
  | unknownGate (x y : Text) : SameKind (.unknownGate x) (.unknownGate y)
  | invalidOperand (x y : Text) : SameKind (.invalidOperand x) (.invalidOperand y)
  | repeatedQubit (q : Qubit) : SameKind (.repeatedQubit q) (.repeatedQubit q)
  | operandCount (g : Gate) (found : Nat) : SameKind (.operandCount g found) (.operandCount g found)

/-- Rejections for a fault of one kind in the same line, or the same rejection. -/
inductive Rejection.SameKind : Rejection → Rejection → Prop
  | badLine {number : Nat} {l m : Text} {f g : Fault} :
      Fault.SameKind f g → SameKind (.badLine number l f) (.badLine number m g)
  | same (r : Rejection) : SameKind r r

/-- Errors for a fault of one kind in the same line, or the same error. -/
inductive CompileError.SameKind : CompileError → CompileError → Prop
  | badLine {number : Nat} {l m : Text} {f g : Fault} : Fault.SameKind f g →
      SameKind (.compilation Frontend.GateList.name l (some number) f.reason)
        (.compilation Frontend.GateList.name m (some number) g.reason)
  | same (e : CompileError) : SameKind e e

/-! ## Reading alike -/

namespace Instruction

theorem readOperands_agree {xs ys : List Text} (h : List.Forall₂ SameOperand xs ys) :
    ∀ named : List Qubit, Agree Fault.SameKind (readOperands named xs) (readOperands named ys) := by
  induction h with
  | nil => exact fun _ => .ok []
  | @cons x y xs ys hxy _ ih =>
    -- what is already named are qubits and not tokens, so it is the same on both lines
    intro named
    unfold readOperands
    rw [hxy.ofToken?_eq]
    cases Qubit.ofToken? y with
    | none => exact .error (.invalidOperand x y)
    | some q =>
      by_cases hq : q ∈ named
      · simp only [if_pos hq]
        exact .error (.repeatedQubit q)
      · simp only [if_neg hq]
        exact (ih (q :: named)).map _

theorem ofOperands_agree {xs ys : List Text} (h : List.Forall₂ SameOperand xs ys) (gate : Gate) :
    Agree Fault.SameKind (ofOperands gate xs) (ofOperands gate ys) := by
  have hread := readOperands_agree h []
  unfold ofOperands
  generalize readOperands [] xs = x at hread ⊢
  generalize readOperands [] ys = y at hread ⊢
  cases hread with
  | error hf => exact .error hf
  | ok qubits =>
    by_cases hcount : qubits.length = gate.arity
    · simp only [if_pos hcount]
      exact .ok _
    · simp only [if_neg hcount]
      exact .error (.operandCount gate qubits.length)

/-- **Tokens that say the same read alike.** -/
theorem ofLine_agree {x y : Text} {xs ys : List Text} (hx : TokensOf x xs) (hy : TokensOf y ys) (h : SameTokens xs ys) :
    Agree Fault.SameKind (ofLine x) (ofLine y) := by
  unfold ofLine
  rw [← Grammar.tokensOf_iff.1 hx, ← Grammar.tokensOf_iff.1 hy]
  cases h with
  | none => exact .error (.unknownGate [] [])
  | @some x y xs ys hname hoperands =>
    simp only [List.headD_cons, List.tail_cons]
    rw [hname.ofMnemonic?_eq]
    cases Gate.ofMnemonic? y with
    | none => exact .error (.unknownGate x y)
    | some gate => exact ofOperands_agree hoperands gate

end Instruction

/-- Clean lines that are both empty, or read alike. -/
def ReadAlike (x y : Text) : Prop :=
  (x = [] ↔ y = []) ∧ Agree Fault.SameKind (Instruction.ofLine x) (Instruction.ofLine y)

theorem readAlike_cleanLine {l m : Text} (h : SameLine l m) : ReadAlike (Kernel.cleanLine l) (Kernel.cleanLine m) := by
  obtain ⟨x, y, xs, ys, hx, hy, hempty, hxs, hys, htokens⟩ := h
  rw [← Grammar.cleanForm_iff.1 hx, ← Grammar.cleanForm_iff.1 hy]
  exact ⟨hempty, Instruction.ofLine_agree hxs hys htokens⟩

namespace Program

/-- **Lines that read alike lead to the same program, or to an error of one kind at the same line.** -/
theorem extend_agree {ls ms : List Text} (h : List.Forall₂ ReadAlike ls ms) :
    ∀ (p : Program) (n : Nat), Agree Rejection.SameKind (p.extend n ls) (p.extend n ms) := by
  induction h with
  | nil => exact fun p _ => .ok p
  | @cons l m ls ms hlm _ ih =>
    intro p n
    obtain ⟨hempty, hread⟩ := hlm
    by_cases hl : l = []
    · rw [hempty.1 hl, hl]
      exact ih p (n + 1)
    · have hm : m ≠ [] := fun hm => hl (hempty.2 hm)
      unfold extend
      rw [if_neg hl, if_neg hm]
      generalize Instruction.ofLine l = x at hread ⊢
      generalize Instruction.ofLine m = y at hread ⊢
      cases hread with
      | ok i => exact ih (p.push i) (n + 1)
      | error hf => exact .error (.badLine hf)

theorem ofLines_agree {ls ms : List Text} (h : List.Forall₂ ReadAlike ls ms) :
    Agree Rejection.SameKind (ofLines ls) (ofLines ms) := by
  have hextend := extend_agree h empty 1
  unfold ofLines
  generalize empty.extend 1 ls = x at hextend ⊢
  generalize empty.extend 1 ms = y at hextend ⊢
  cases hextend with
  | ok p => exact .refl .same _
  | error hr => exact .error hr

theorem ofLines_bares (source : Text) :
    ofLines (Kernel.bares source) = ofLines ((Text.lines source).map Kernel.cleanLine) := by
  obtain ⟨k, hk⟩ := Kernel.exists_bares_eq_map_lines source
  rw [hk, ofLines_append_blanks fun l hl => List.eq_of_mem_replicate hl]

theorem ofLines_agree_of_sameSource {a b : Text} (h : SameSource a b) :
    Agree Rejection.SameKind (ofLines (Kernel.bares a)) (ofLines (Kernel.bares b)) := by
  have halike : ∀ {ls ms : List Text}, List.Forall₂ SameLine ls ms →
      List.Forall₂ ReadAlike (ls.map Kernel.cleanLine) (ms.map Kernel.cleanLine) := fun h => by
    rw [List.forall₂_map_left_iff, List.forall₂_map_right_iff]
    exact h.imp fun _ _ => readAlike_cleanLine
  rcases h with h | h
  · exact ofLines_agree (halike h)
  · rw [ofLines_bares, ofLines_bares]
    exact ofLines_agree (halike h)

end Program

namespace Frontend

theorem sameKind_toError {r s : Rejection} (h : Rejection.SameKind r s) (target : Target) :
    CompileError.SameKind (r.toError GateList.name target) (s.toError GateList.name target) := by
  cases h with
  | badLine hf => exact .badLine hf
  | same => exact .same _

/-- **Sources that say the same come to the same program, or to an error of the same kind**, for every target.  The kinds
are those of faults: the line is the same, and so is every number that the reason gives; any other error is the same in
every field. -/
theorem result_of_sameSource {a b : Text} (h : SameSource a b) (target : Target) :
    Agree CompileError.SameKind (gateList.pipeline.result a target) (gateList.pipeline.result b target) := by
  rw [result_gateList, result_gateList]
  refine Agree.mapError (R := Rejection.SameKind) ?_ fun hr => sameKind_toError hr target
  exact (Program.ofLines_agree_of_sameSource h).bind fun p => .refl .same _

theorem result_of_sameSource_pair :
    SameSource "cx q[01],\t0 # pair\nh +1".toList ",CNOT Q1 , q[000]\r\nH 1- // no".toList ∧
      Agree CompileError.SameKind
        (gateList.pipeline.result "cx q[01],\t0 # pair\nh +1".toList ⟨"sim".toList, some 2⟩)
        (gateList.pipeline.result ",CNOT Q1 , q[000]\r\nH 1- // no".toList ⟨"sim".toList, some 2⟩) := by
  have hnone : ∀ x, Qubit.ofToken? x = none → ¬ ∃ q, Grammar.Names x q := fun x hx ⟨q, hq⟩ => by
    rw [Grammar.names_iff, hx] at hq
    cases hq
  have hone : SameOperand "q[01]".toList "Q1".toList := Or.inl ⟨1, Grammar.names_iff.2 rfl, Grammar.names_iff.2 rfl⟩
  have hzero : SameOperand "0".toList "q[000]".toList := Or.inl ⟨0, Grammar.names_iff.2 rfl, Grammar.names_iff.2 rfl⟩
  have hsign : SameOperand "+1".toList "1-".toList := Or.inr ⟨hnone _ rfl, hnone _ rfl⟩
  have hpair : SameLine "cx q[01],\t0 # pair".toList ",CNOT Q1 , q[000]\r".toList :=
    ⟨_, _, _, _, Grammar.cleanForm_iff.2 rfl, Grammar.cleanForm_iff.2 rfl, by decide, Grammar.tokensOf_iff.2 rfl,
      Grammar.tokensOf_iff.2 rfl, .some (Or.inr ⟨Or.inr ⟨rfl, rfl⟩, Or.inl rfl⟩) (.cons hone (.cons hzero .nil))⟩
  have hbad : SameLine "h +1".toList "H 1- // no".toList :=
    ⟨_, _, _, _, Grammar.cleanForm_iff.2 rfl, Grammar.cleanForm_iff.2 rfl, by decide, Grammar.tokensOf_iff.2 rfl,
      Grammar.tokensOf_iff.2 rfl, .some (Or.inl rfl) (.cons hsign .nil)⟩
  have hsame : SameSource "cx q[01],\t0 # pair\nh +1".toList ",CNOT Q1 , q[000]\r\nH 1- // no".toList :=
    Or.inl (.cons hpair (.cons hbad .nil))
  exact ⟨hsame, result_of_sameSource hsame _⟩

end Frontend
end QuantumKernel
