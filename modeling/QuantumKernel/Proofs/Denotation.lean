import QuantumKernel.Kernel.Grammar
import QuantumKernel.Kernel.Reading
/-! # Denotation — a line is read as the instruction it stands for

The grammar says what a line stands for, the reader computes it; `ofLine_eq_ok_iff` says that they agree.  Each rule of the
grammar has its lemma on the way: `tokensOf_iff` for tokens, `names_iff` for operands, `namesGate_iff` for gate names, and
`readOperands_eq_ok_iff` for the operands of a line together.
-/
namespace QuantumKernel

theorem exists_mem_of_forall₂ {α β : Type} {R : α → β → Prop} {l : List α} {m : List β} (h : List.Forall₂ R l m) {a : α}
    (ha : a ∈ l) : ∃ b ∈ m, R a b := by
  induction h with
  | nil => cases ha
  | cons hab _ ih =>
    rcases List.mem_cons.1 ha with rfl | ha
    · exact ⟨_, List.mem_cons_self .., hab⟩
    · obtain ⟨b, hb, hab⟩ := ih ha
      exact ⟨b, List.mem_cons_of_mem _ hb, hab⟩

/-! ## Tokens -/

namespace Kernel

theorem tokens_append_cons {c : Char} (hc : isSeparator c = true) (a b : Text) :
    tokens (a ++ c :: b) = tokens a ++ tokens b := by
  unfold tokens
  rw [Text.splitWhere_append_cons hc, List.filter_append]

theorem tokens_cons_separator {c : Char} (hc : isSeparator c = true) (t : Text) : tokens (c :: t) = tokens t :=
  tokens_append_cons hc [] t

theorem tokens_append_separators : ∀ {gap : Text}, (∀ c ∈ gap, isSeparator c = true) → ∀ t : Text,
    tokens (gap ++ t) = tokens t
  | [], _, _ => rfl
  | c :: gap, h, t => by
    rw [List.cons_append, tokens_cons_separator (h c (List.mem_cons_self ..)),
      tokens_append_separators (fun d hd => h d (List.mem_cons_of_mem _ hd)) t]

theorem tokens_of_isToken {word : Text} (h : Grammar.IsToken word) : tokens word = [word] := by
  unfold tokens
  rw [Text.splitWhere_of_forall h.2]
  simp [h.1]

/-- **A token ends at the first separator after it.** -/
theorem tokens_token_append {word rest : Text} (hword : Grammar.IsToken word)
    (hrest : ∀ c ∈ rest.head?, isSeparator c = true) : tokens (word ++ rest) = word :: tokens rest := by
  cases rest with
  | nil => rw [List.append_nil, tokens_of_isToken hword]; rfl
  | cons c rest =>
    have hc : isSeparator c = true := hrest c rfl
    rw [tokens_append_cons hc, tokens_of_isToken hword, tokens_cons_separator hc]
    rfl

end Kernel

namespace Grammar

theorem TokensOf.eq_tokens {line : Text} {words : List Text} (h : TokensOf line words) :
    words = Kernel.tokens line := by
  induction h with
  | nil hgap =>
    have := Kernel.tokens_append_separators hgap []
    rw [List.append_nil] at this
    rw [this]
    rfl
  | cons hgap hword hrest _ ih =>
    rw [List.append_assoc, Kernel.tokens_append_separators hgap, Kernel.tokens_token_append hword hrest, ← ih]

theorem TokensOf.cons_separator {c : Char} (hc : Kernel.isSeparator c = true) {line : Text} {words : List Text}
    (h : TokensOf line words) : TokensOf (c :: line) words := by
  cases h with
  | nil hgap => exact .nil (List.forall_mem_cons.2 ⟨hc, hgap⟩)
  | cons hgap hword hrest h => exact .cons (List.forall_mem_cons.2 ⟨hc, hgap⟩) hword hrest h

theorem TokensOf.token_append {word rest : Text} {words : List Text} (hword : IsToken word)
    (hrest : ∀ c ∈ rest.head?, Kernel.isSeparator c = true) (h : TokensOf rest words) :
    TokensOf (word ++ rest) (word :: words) :=
  .cons (List.forall_mem_nil _) hword hrest h

/-- Every text has tokens: one more character in front belongs to the first gap or the first token, or is a token. -/
theorem exists_tokensOf : ∀ line : Text, ∃ words, TokensOf line words
  | [] => ⟨[], .nil (List.forall_mem_nil _)⟩
  | c :: line => by
    obtain ⟨words, h⟩ := exists_tokensOf line
    by_cases hc : Kernel.isSeparator c = true
    · exact ⟨words, h.cons_separator hc⟩
    · rw [Bool.not_eq_true] at hc
      have halone : IsToken [c] := ⟨List.cons_ne_nil c [], fun d hd => by rwa [List.mem_singleton.1 hd]⟩
      cases h with
      | nil hgap => exact ⟨[[c]], .token_append halone (fun d hd => hgap d (List.mem_of_mem_head? hd)) (.nil hgap)⟩
      | @cons gap word rest words hgap hword hrest h =>
        cases gap with
        | nil =>
          have hlonger : IsToken (c :: word) := ⟨List.cons_ne_nil c word, List.forall_mem_cons.2 ⟨hc, hword.2⟩⟩
          exact ⟨(c :: word) :: words, .token_append hlonger hrest h⟩
        | cons d gap =>
          -- a separator stands between, so the character is a token of its own
          refine ⟨[c] :: word :: words, .token_append halone (fun e he => ?_) (.cons hgap hword hrest h)⟩
          rw [← Option.some.inj he]
          exact hgap d (List.mem_cons_self ..)

/-- **A text has its tokens and no others.** -/
theorem tokensOf_iff {line : Text} {words : List Text} : TokensOf line words ↔ words = Kernel.tokens line := by
  constructor
  · exact TokensOf.eq_tokens
  · rintro rfl
    obtain ⟨words, h⟩ := exists_tokensOf line
    rwa [← h.eq_tokens]

/-! ## Operands and gate names -/

theorem numeral_iff {digits : Text} {n : Nat} : Numeral digits n ↔ Text.decimal? digits = some n := by
  unfold Numeral Text.decimal?
  rw [← List.all_eq_true]
  split
  · rename_i h
    simp [h]
  · rename_i h
    exact ⟨fun ⟨hne, hall, _⟩ => absurd ⟨hne, hall⟩ h, fun h => by cases h⟩

theorem Operand.numeral_eq {digits token : Text} (h : Operand digits token)
    (hdigits : ∀ c ∈ digits, c.isDigit = true) : Qubit.numeral token = digits := by
  cases h with
  | bare => exact Qubit.numeral_of_isDigit hdigits
  | letter hq =>
    have hopen : Qubit.unbracketed digits = digits := by
      unfold Qubit.unbracketed
      split
      · exact absurd (hdigits '[' (List.mem_cons_self ..)) (by decide)
      · rfl
    rcases hq with rfl | rfl <;> exact hopen
  | brackets hq =>
    have hinner : Qubit.unbracketed ('[' :: (digits ++ [']'])) = digits := by
      simp [Qubit.unbracketed]
    rcases hq with rfl | rfl <;> exact hinner

theorem unbracketed_cases (t : Text) : t = '[' :: (Qubit.unbracketed t ++ [']']) ∨ Qubit.unbracketed t = t := by
  unfold Qubit.unbracketed
  split
  · rename_i inner
    by_cases hlast : inner.getLast? = some ']'
    · have hinner : inner.dropLast ++ [']'] = inner := List.dropLast_append_getLast? _ hlast
      rw [if_pos hlast, hinner]
      exact Or.inl rfl
    · rw [if_neg hlast]
      exact Or.inr rfl
  · exact Or.inr rfl

theorem operand_unbracketed {q : Char} (hq : q = 'q' ∨ q = 'Q') (rest : Text) :
    Operand (Qubit.unbracketed rest) (q :: rest) := by
  rcases unbracketed_cases rest with h | h
  · have : Operand (Qubit.unbracketed rest) (q :: '[' :: Qubit.unbracketed rest ++ [']']) := .brackets hq
    rwa [List.cons_append, List.cons_append, ← h] at this
  · rw [h]
    exact .letter hq

/-- Every text has the form of an operand; whether it is one is up to its numeral. -/
theorem operand_numeral (token : Text) : Operand (Qubit.numeral token) token := by
  unfold Qubit.numeral
  split
  · exact operand_unbracketed (Or.inl rfl) _
  · exact operand_unbracketed (Or.inr rfl) _
  · exact .bare

/-- **An operand is read as the qubit it names.** -/
theorem names_iff {token : Text} {q : Qubit} : Names token q ↔ Qubit.ofToken? token = some q := by
  unfold Qubit.ofToken?
  constructor
  · rintro ⟨hbound, digits, hoperand, hnumeral⟩
    rw [hoperand.numeral_eq hnumeral.2.1, numeral_iff.1 hnumeral]
    simp [hbound]
  · intro h
    split at h
    · rename_i n hn
      split at h
      · rename_i hbound
        have hnumeral := numeral_iff.2 hn
        have hq : q.toNat = n := by
          rw [← Option.some.inj h, UInt64.toNat_ofNat']
          unfold Qubit.bound UInt64.size at hbound
          omega
        rw [← hq] at hbound hnumeral
        exact ⟨hbound, _, operand_numeral token, hnumeral⟩
      · cases h
    · cases h

theorem namesGate_iff {token : Text} {g : Gate} : NamesGate token g ↔ Gate.ofMnemonic? token = some g := by
  unfold Gate.ofMnemonic? NamesGate
  generalize token.map Char.toUpper = name
  constructor
  · rintro (rfl | ⟨rfl, rfl⟩)
    · cases g <;> decide
    · decide
  · intro h
    obtain ⟨before, after, hsplit, -⟩ := List.lookup_eq_some_iff.1 h
    have hmem : (name, g) ∈ Gate.spellings := by rw [hsplit]; simp
    rcases List.mem_append.1 hmem with hmem | hmem
    · obtain ⟨g', -, he⟩ := List.mem_map.1 hmem
      obtain ⟨rfl, rfl⟩ := Prod.mk.inj he
      exact Or.inl rfl
    · obtain ⟨rfl, rfl⟩ := Prod.mk.inj (List.mem_singleton.1 hmem)
      exact Or.inr ⟨rfl, rfl⟩

end Grammar

/-! ## Lines -/

namespace Instruction

open Grammar

theorem readOperands_cons_eq_ok_iff {named qubits : List Qubit} {token : Text} {rest : List Text} :
    readOperands named (token :: rest) = .ok qubits ↔ ∃ qubit others, qubits = qubit :: others ∧
      Names token qubit ∧ qubit ∉ named ∧ readOperands (qubit :: named) rest = .ok others := by
  rw [readOperands]
  constructor
  · intro h
    split at h
    · cases h
    · rename_i qubit hqubit
      split at h
      · cases h
      · rename_i hnew
        cases hrest : readOperands (qubit :: named) rest with
        | error fault => rw [hrest] at h; cases h
        | ok others =>
          rw [hrest] at h
          exact ⟨qubit, others, (Except.ok.inj h).symm, names_iff.2 hqubit, hnew, hrest⟩
  · rintro ⟨qubit, others, rfl, hqubit, hnew, hrest⟩
    rw [names_iff.1 hqubit]
    simp only [if_neg hnew, hrest]
    rfl

/-- **Operands are read when each names a qubit and none of the qubits comes twice**, counting those already named. -/
theorem readOperands_eq_ok_iff : ∀ {named : List Qubit} {tokens : List Text} {qubits : List Qubit},
    readOperands named tokens = .ok qubits ↔
      List.Forall₂ Names tokens qubits ∧ qubits.Nodup ∧ ∀ q ∈ qubits, q ∉ named
  | named, [], qubits => by
    unfold readOperands
    constructor
    · intro h
      obtain rfl := Except.ok.inj h
      simp
    · rintro ⟨h, -⟩
      cases h
      rfl
  | named, token :: rest, qubits => by
    rw [readOperands_cons_eq_ok_iff]
    constructor
    · rintro ⟨qubit, others, rfl, hqubit, hnew, hrest⟩
      obtain ⟨hnames, hnodup, hothers⟩ := readOperands_eq_ok_iff.1 hrest
      -- the rest was read with this qubit among those named, so it is not named again
      refine ⟨.cons hqubit hnames, List.nodup_cons.2 ⟨fun hq => ?_, hnodup⟩, ?_⟩
      · exact hothers qubit hq (List.mem_cons_self ..)
      · exact List.forall_mem_cons.2 ⟨hnew, fun q hq hn => hothers q hq (List.mem_cons_of_mem _ hn)⟩
    · rintro ⟨hnames, hnodup, hothers⟩
      cases hnames with
      | @cons _ qubit _ others hqubit hnames =>
        obtain ⟨hnew, hothers⟩ := List.forall_mem_cons.1 hothers
        obtain ⟨hfirst, hnodup⟩ := List.nodup_cons.1 hnodup
        refine ⟨qubit, others, rfl, hqubit, hnew, readOperands_eq_ok_iff.2 ⟨hnames, hnodup, fun q hq hn => ?_⟩⟩
        rcases List.mem_cons.1 hn with rfl | hn
        · exact hfirst hq
        · exact hothers q hq hn

theorem ofOperands_eq_ok_iff {gate : Gate} {operands : List Text} {i : Instruction} :
    ofOperands gate operands = .ok i ↔
      i.gate = gate ∧ i.qubits.length = gate.arity ∧ readOperands [] operands = .ok i.qubits := by
  unfold ofOperands
  cases hread : readOperands [] operands with
  | error fault => simp
  | ok qubits =>
    by_cases hcount : qubits.length = gate.arity
    · simp only [if_pos hcount, Except.ok.injEq]
      constructor
      · rintro rfl
        exact ⟨rfl, hcount, rfl⟩
      · rintro ⟨rfl, -, rfl⟩
        rfl
    · simp only [if_neg hcount, reduceCtorEq, Except.ok.injEq, false_iff]
      rintro ⟨-, hlength, rfl⟩
      exact hcount hlength

/-- **A line is read as an instruction exactly when it stands for it.** -/
theorem ofLine_eq_ok_iff {line : Text} {i : Instruction} : ofLine line = .ok i ↔ Denotes line i := by
  unfold ofLine
  constructor
  · intro h
    simp only at h
    split at h
    · cases h
    · rename_i gate hgate
      obtain ⟨rfl, hcount, hread⟩ := ofOperands_eq_ok_iff.1 h
      obtain ⟨hnames, hnodup, -⟩ := readOperands_eq_ok_iff.1 hread
      cases htokens : Kernel.tokens line with
      | nil =>
        rw [htokens] at hgate
        cases hgate
      | cons name operands =>
        rw [htokens] at hgate hnames
        refine ⟨⟨hcount, hnodup, fun q hq => ?_⟩, name, operands, tokensOf_iff.2 htokens.symm,
          namesGate_iff.2 hgate, hnames⟩
        obtain ⟨token, -, hq⟩ := exists_mem_of_forall₂ hnames.flip hq
        exact hq.1
  · rintro ⟨⟨hcount, hnodup, -⟩, name, operands, htokens, hgate, hnames⟩
    rw [← tokensOf_iff.1 htokens]
    simp only [List.headD_cons, List.tail_cons, namesGate_iff.1 hgate]
    exact ofOperands_eq_ok_iff.2 ⟨rfl, hcount, readOperands_eq_ok_iff.2 ⟨hnames, hnodup, fun q _ hq => by cases hq⟩⟩

/-- A line has a fault exactly when it stands for no instruction. -/
theorem exists_ofLine_eq_error_iff {line : Text} :
    (∃ fault, ofLine line = .error fault) ↔ ¬ ∃ i, Denotes line i := by
  simp only [← ofLine_eq_ok_iff]
  cases ofLine line <;> simp

/-- An instruction on a line is well formed. -/
theorem wellFormed_of_ofLine {line : Text} {i : Instruction} (h : ofLine line = .ok i) : i.WellFormed :=
  (ofLine_eq_ok_iff.1 h).1

end Instruction

namespace Grammar

theorem Denotes.ne_nil {line : Text} {i : Instruction} (h : Denotes line i) : line ≠ [] := by
  rintro rfl
  obtain ⟨-, name, operands, htokens, -⟩ := h
  have := tokensOf_iff.1 htokens
  cases this

theorem Denotes.unique {line : Text} {i j : Instruction} (hi : Denotes line i) (hj : Denotes line j) : i = j :=
  Except.ok.inj ((Instruction.ofLine_eq_ok_iff.2 hi).symm.trans (Instruction.ofLine_eq_ok_iff.2 hj))

end Grammar
end QuantumKernel
