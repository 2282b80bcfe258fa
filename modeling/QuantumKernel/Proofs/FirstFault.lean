import QuantumKernel.Proofs.Outcome
/-! # FirstFault — the reason that a line is rejected for

A line may be wrong in several ways at once.  `FirstFault` says which of them counts, and in which words: the gate's name
comes before the operands, an operand before those after it, and the number of operands last.  Reading the operands stops
at the first that is wrong (`exists_readOperands_of_fault`), and a line that stands for no instruction has a first fault
(`exists_denotes_or_firstFault`), so the reason given is that of the first fault (`firstFault_iff`).
-/
namespace QuantumKernel

namespace Grammar

/-- Operands that name qubits, no two of them the same. -/
def NameApart (operands : List Text) (qubits : List Qubit) : Prop := List.Forall₂ Names operands qubits ∧ qubits.Nodup

/-- The reason to reject an operand, where those before it named these qubits. -/
inductive OperandFault (named : List Qubit) (operand : Text) : Text → Prop
  | invalid : (¬ ∃ q, Names operand q) →
      OperandFault named operand ("invalid qubit operand `".toList ++ operand ++ "`".toList)
  | repeated {q : Qubit} : Names operand q → q ∈ named →
      OperandFault named operand ("qubit ".toList ++ Text.decimal q.toNat ++ " used twice".toList)

/-- The reason to reject a line: its first token names no gate, the empty text standing in where there is no token; or the
first operand that is wrong; or, where each names a qubit of its own, that they are not as many as the gate acts on. -/
inductive FirstFault (line : Text) : Text → Prop
  | gate {words : List Text} : TokensOf line words → (¬ ∃ g, NamesGate (words.headD []) g) →
      FirstFault line ("unknown gate `".toList ++ words.headD [] ++ "`".toList)
  | operand {name operand reason : Text} {before after : List Text} {g : Gate} {qubits : List Qubit} :
      TokensOf line (name :: (before ++ operand :: after)) → NamesGate name g → NameApart before qubits →
      OperandFault qubits operand reason → FirstFault line reason
  | count {name : Text} {operands : List Text} {g : Gate} {qubits : List Qubit} :
      TokensOf line (name :: operands) → NamesGate name g → NameApart operands qubits → operands.length ≠ g.arity →
      FirstFault line (g.mnemonic ++ " takes ".toList ++ Text.decimal g.arity ++ " operand(s), found ".toList
        ++ Text.decimal operands.length)

theorem OperandFault.mono {named others : List Qubit} {operand reason : Text} (h : OperandFault named operand reason)
    (hsub : ∀ q ∈ named, q ∈ others) : OperandFault others operand reason := by
  cases h with
  | invalid hnone => exact .invalid hnone
  | repeated hq hmem => exact .repeated hq (hsub _ hmem)

theorem forall_not_names_iff {token : Text} : (¬ ∃ q, Names token q) ↔ Qubit.ofToken? token = none := by
  simp only [names_iff]
  cases Qubit.ofToken? token <;> simp

theorem forall_not_namesGate_iff {token : Text} : (¬ ∃ g, NamesGate token g) ↔ Gate.ofMnemonic? token = none := by
  simp only [namesGate_iff]
  cases Gate.ofMnemonic? token <;> simp

end Grammar

namespace Instruction

open Grammar

/-! ## The operands in order -/

theorem readOperands_append (b : List Text) : ∀ (a : List Text) (named : List Qubit),
    readOperands named (a ++ b) =
      (readOperands named a).bind fun qubits => (readOperands (qubits.reverse ++ named) b).map (qubits ++ ·)
  | [], named => by
    simp only [List.nil_append, readOperands, Except.bind, List.reverse_nil]
    cases readOperands named b with
    | error fault => rfl
    | ok qubits => rfl
  | token :: a, named => by
    rw [List.cons_append, readOperands, readOperands]
    cases Qubit.ofToken? token with
    | none => rfl
    | some qubit =>
      by_cases hmem : qubit ∈ named
      · simp only [if_pos hmem]
        rfl
      · simp only [if_neg hmem, readOperands_append b a]
        cases readOperands (qubit :: named) a with
        | error fault => rfl
        | ok qubits =>
          have hnamed : (qubit :: qubits).reverse ++ named = qubits.reverse ++ qubit :: named := by simp
          simp only [Except.bind, Except.map, hnamed]
          cases readOperands (qubits.reverse ++ qubit :: named) b with
          | error fault => rfl
          | ok others => rfl

/-- **An operand that is wrong ends the reading**, whatever comes after it. -/
theorem exists_readOperands_of_fault {named : List Qubit} {operand reason : Text}
    (h : OperandFault named operand reason) (after : List Text) :
    ∃ fault, readOperands named (operand :: after) = .error fault ∧ fault.reason = reason := by
  unfold readOperands
  cases h with
  | invalid hnone =>
    rw [forall_not_names_iff.1 hnone]
    exact ⟨_, rfl, rfl⟩
  | repeated hq hmem =>
    rw [names_iff.1 hq]
    simp only [if_pos hmem]
    exact ⟨_, rfl, rfl⟩

/-- Either every operand names a qubit of its own, or there is a first one that does not. -/
theorem readOperands_ok_or_fault : ∀ (operands : List Text) (named : List Qubit),
    (∃ qubits, readOperands named operands = .ok qubits) ∨
      ∃ before operand after qubits reason, operands = before ++ operand :: after ∧
        readOperands named before = .ok qubits ∧ OperandFault (qubits.reverse ++ named) operand reason
  | [], _ => Or.inl ⟨[], rfl⟩
  | token :: rest, named => by
    -- a fault of this token is the first, since nothing comes before it
    have hhere : ∀ {reason}, OperandFault named token reason → ∃ before operand after qubits reason,
        token :: rest = before ++ operand :: after ∧ readOperands named before = .ok qubits ∧
          OperandFault (qubits.reverse ++ named) operand reason :=
      fun hfault => ⟨[], token, rest, [], _, rfl, rfl, hfault⟩
    cases htoken : Qubit.ofToken? token with
    | none => exact Or.inr (hhere (.invalid (forall_not_names_iff.2 htoken)))
    | some qubit =>
      by_cases hmem : qubit ∈ named
      · exact Or.inr (hhere (.repeated (names_iff.2 htoken) hmem))
      · have hcons : ∀ {tokens qubits}, readOperands (qubit :: named) tokens = .ok qubits →
            readOperands named (token :: tokens) = .ok (qubit :: qubits) := fun hread =>
          readOperands_cons_eq_ok_iff.2 ⟨qubit, _, rfl, names_iff.2 htoken, hmem, hread⟩
        rcases readOperands_ok_or_fault rest (qubit :: named) with
          ⟨qubits, hread⟩ | ⟨before, operand, after, qubits, reason, rfl, hread, hfault⟩
        · exact Or.inl ⟨_, hcons hread⟩
        · refine Or.inr ⟨token :: before, operand, after, qubit :: qubits, reason, rfl, hcons hread, ?_⟩
          exact hfault.mono fun q hq => by simpa [or_assoc, or_comm, or_left_comm] using hq

theorem nameApart_iff {operands : List Text} {qubits : List Qubit} :
    NameApart operands qubits ↔ readOperands [] operands = .ok qubits := by
  rw [readOperands_eq_ok_iff, NameApart]
  simp

/-! ## The line -/

theorem ofLine_of_gate {line name : Text} {operands : List Text} {g : Gate} (htokens : TokensOf line (name :: operands))
    (hgate : NamesGate name g) : ofLine line = ofOperands g operands := by
  rw [ofLine, ← tokensOf_iff.1 htokens]
  simp only [List.headD_cons, List.tail_cons, namesGate_iff.1 hgate]

/-- **A line is rejected for its first fault.** -/
theorem exists_ofLine_of_firstFault {line reason : Text} (h : FirstFault line reason) :
    ∃ fault, ofLine line = .error fault ∧ fault.reason = reason := by
  cases h with
  | gate htokens hnone =>
    rw [ofLine, ← tokensOf_iff.1 htokens, forall_not_namesGate_iff.1 hnone]
    exact ⟨_, rfl, rfl⟩
  | @operand name operand reason before after g qubits htokens hgate hapart hfault =>
    rw [ofLine_of_gate htokens hgate, ofOperands, readOperands_append, nameApart_iff.1 hapart]
    have hlater : OperandFault (qubits.reverse ++ []) operand reason := hfault.mono (by simp)
    obtain ⟨fault, hread, hreason⟩ := exists_readOperands_of_fault hlater after
    exact ⟨fault, by simp only [Except.bind, hread]; rfl, hreason⟩
  | @count name operands g qubits htokens hgate hapart hcount =>
    have hlength : operands.length = qubits.length := hapart.1.length_eq
    rw [hlength] at hcount
    rw [ofLine_of_gate htokens hgate, ofOperands, nameApart_iff.1 hapart, hlength]
    exact ⟨_, if_neg hcount, rfl⟩

/-- **A line stands for an instruction or has a first fault.** -/
theorem exists_denotes_or_firstFault (line : Text) : (∃ i, Denotes line i) ∨ ∃ reason, FirstFault line reason := by
  obtain ⟨words, htokens⟩ := exists_tokensOf line
  cases hgate : Gate.ofMnemonic? (words.headD []) with
  | none => exact Or.inr ⟨_, .gate htokens (forall_not_namesGate_iff.2 hgate)⟩
  | some g =>
    cases words with
    | nil => cases hgate
    | cons name operands =>
      have hname : NamesGate name g := namesGate_iff.2 hgate
      rcases readOperands_ok_or_fault operands [] with
        ⟨qubits, hread⟩ | ⟨before, operand, after, qubits, reason, rfl, hread, hfault⟩
      · have hapart : NameApart operands qubits := nameApart_iff.2 hread
        by_cases hcount : operands.length = g.arity
        · refine Or.inl ⟨⟨g, qubits⟩, ofLine_eq_ok_iff.1 ?_⟩
          rw [ofLine_of_gate htokens hname]
          exact ofOperands_eq_ok_iff.2 ⟨rfl, hapart.1.length_eq ▸ hcount, hread⟩
        · exact Or.inr ⟨_, .count htokens hname hapart hcount⟩
      · exact Or.inr ⟨_, .operand htokens hname (nameApart_iff.2 hread) (hfault.mono (by simp))⟩

theorem firstFault_iff {line reason : Text} :
    FirstFault line reason ↔ ∃ fault, ofLine line = .error fault ∧ fault.reason = reason := by
  refine ⟨exists_ofLine_of_firstFault, ?_⟩
  rintro ⟨fault, hread, rfl⟩
  rcases exists_denotes_or_firstFault line with hdenotes | ⟨reason, hfault⟩
  · exact absurd hdenotes (exists_ofLine_eq_error_iff.1 ⟨fault, hread⟩)
  · obtain ⟨other, hother, rfl⟩ := exists_ofLine_of_firstFault hfault
    rw [hread] at hother
    rwa [Except.error.inj hother]

end Instruction

namespace Frontend

open Grammar (FirstBad FirstFault)

/-- **A line is rejected exactly when it has a first fault, and for that reason.**  In a run, the error for a line names
the front-end and the whole line, and gives the reason of the first bad line's first fault. -/
theorem rejected_for_first_fault :
    (∀ line reason,
        (∃ fault, Instruction.ofLine line = .error fault ∧ fault.reason = reason) ↔ FirstFault line reason) ∧
      ∀ source target frontend fragment number reason,
        gateList.pipeline.result source target = .error (.compilation frontend fragment (some number) reason) ↔
          frontend = GateList.name ∧ FirstBad source number fragment ∧ FirstFault fragment reason := by
  refine ⟨fun line reason => Instruction.firstFault_iff.symm, fun source target frontend fragment number reason => ?_⟩
  rw [result_eq_iff]
  constructor
  · intro h
    cases h with
    | badLine hbad hf => exact ⟨rfl, hbad, Instruction.firstFault_iff.2 ⟨_, hf, rfl⟩⟩
  · rintro ⟨rfl, hbad, hfault⟩
    obtain ⟨fault, hf, rfl⟩ := Instruction.exists_ofLine_of_firstFault hfault
    exact .badLine hbad hf

example : gateList.pipeline.result "H q[2]\n, x q7 Q[07] zz # all at once\n".toList ⟨"sim".toList, some 1⟩ =
    .error (.compilation GateList.name ", x q7 Q[07] zz".toList (some 2) "qubit 7 used twice".toList) := by rfl

end Frontend
end QuantumKernel
