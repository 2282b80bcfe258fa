import QuantumKernel.Kernel.Grammar
import QuantumKernel.Kernel.Reading
/-! # WellFormed — programs of well-formed instructions that count their qubits

A well-formed program has well-formed instructions only, and counts one qubit more than its largest index.  The program
without instructions is one, and one more well-formed instruction leaves it one (`WellFormed.push`): the sum in the count
stays below the largest word.
-/
namespace QuantumKernel

instance lawfulOrderMax_uint64 : Std.LawfulOrderMax UInt64 where
  max_eq_or a b := by
    unfold max instMaxUInt64 maxOfLe
    by_cases h : a ≤ b
    · exact Or.inr (if_pos h)
    · exact Or.inl (if_neg h)
  max_le_iff a b c := by
    simp only [UInt64.le_iff_toNat_le, UInt64.toNat_max]
    omega

theorem Instruction.WellFormed.exists_largest {i : Instruction} (h : i.WellFormed) :
    ∃ largest ∈ i.qubits, i.qubits.max? = some largest ∧ (∀ q ∈ i.qubits, q ≤ largest) ∧
      largest.toNat < Qubit.bound := by
  obtain ⟨hcount, -, hbound⟩ := h
  have hpos : 0 < i.gate.arity := by cases i.gate <;> decide
  have hne : i.qubits ≠ [] := by
    intro hnil
    rw [hnil, List.length_nil] at hcount
    omega
  cases hmax : i.qubits.max? with
  | none => exact absurd (List.max?_eq_none_iff.1 hmax) hne
  | some largest =>
    obtain ⟨hmem, hle⟩ := List.max?_eq_some_iff.1 hmax
    exact ⟨largest, hmem, rfl, hle, hbound largest hmem⟩

namespace Program

/-- The indices that a program's instructions name, in order. -/
def indices (p : Program) : List Qubit := p.instructions.flatMap Instruction.qubits

/-- A program is well formed when its instructions are and it counts one qubit more than the largest of its indices, or
none if it has no instructions. -/
structure WellFormed (p : Program) : Prop where
  instructions : ∀ i ∈ p.instructions, i.WellFormed
  unused : p.instructions = [] → p.qubitsUsed = 0
  used : p.instructions ≠ [] →
    ∃ largest ∈ p.indices, (∀ q ∈ p.indices, q ≤ largest) ∧ p.qubitsUsed.toNat = largest.toNat + 1

theorem mem_indices {p : Program} {q : Qubit} : q ∈ p.indices ↔ ∃ i ∈ p.instructions, q ∈ i.qubits := List.mem_flatMap

theorem indices_push (p : Program) (i : Instruction) : (p.push i).indices = p.indices ++ i.qubits := by
  simp [indices]

theorem wellFormed_empty : empty.WellFormed :=
  ⟨List.forall_mem_nil _, fun _ => rfl, fun h => absurd rfl h⟩

/-- The count goes up to one more than an index below the bound, as the sum is a word. -/
theorem toNat_qubitsUsed_push (p : Program) {i : Instruction} {m : Qubit} (hmax : i.qubits.max? = some m)
    (hbound : m.toNat < Qubit.bound) : (p.push i).qubitsUsed.toNat = max p.qubitsUsed.toNat (m.toNat + 1) := by
  have hsucc : (m + 1).toNat = m.toNat + 1 := by
    unfold Qubit.bound UInt64.size at hbound
    rw [UInt64.toNat_add, UInt64.toNat_one]
    omega
  rw [qubitsUsed_push, spanWith, hmax, UInt64.toNat_max, hsucc]

/-- **One more well-formed instruction leaves a program well formed.** -/
theorem WellFormed.push {p : Program} (h : p.WellFormed) {i : Instruction} (hi : i.WellFormed) :
    (p.push i).WellFormed := by
  obtain ⟨m, hm, hmax, hle, hbound⟩ := hi.exists_largest
  refine ⟨fun j hj => ?_, fun hnil => ?_, fun _ => ?_⟩
  · rcases List.mem_append.1 hj with hj | hj
    · exact h.instructions j hj
    · rwa [List.mem_singleton.1 hj]
  · exact absurd hnil (by simp)
  · rw [indices_push, toNat_qubitsUsed_push p hmax hbound]
    by_cases hp : p.instructions = []
    · have hzero : p.qubitsUsed.toNat = 0 := by rw [h.unused hp]; rfl
      have hnone : p.indices = [] := by rw [indices, hp]; rfl
      rw [hnone, hzero, List.nil_append]
      exact ⟨m, hm, hle, Nat.zero_max _⟩
    · -- the largest index is now the larger of `l` so far and `m` of the new instruction
      obtain ⟨l, hl, hlle, hlused⟩ := h.used hp
      rw [hlused]
      by_cases hlm : l ≤ m
      · refine ⟨m, List.mem_append_right _ hm, fun q hq => ?_, ?_⟩
        · rcases List.mem_append.1 hq with hq | hq
          · exact UInt64.le_trans (hlle q hq) hlm
          · exact hle q hq
        · rw [UInt64.le_iff_toNat_le] at hlm
          exact Nat.max_eq_right (by omega)
      · have hml : m ≤ l := (UInt64.le_total m l).resolve_right hlm
        refine ⟨l, List.mem_append_left _ hl, fun q hq => ?_, ?_⟩
        · rcases List.mem_append.1 hq with hq | hq
          · exact hlle q hq
          · exact UInt64.le_trans (hle q hq) hml
        · rw [UInt64.le_iff_toNat_le] at hml
          exact Nat.max_eq_left (by omega)

theorem WellFormed.foldl_push : ∀ {is : List Instruction} {p : Program}, p.WellFormed → (∀ i ∈ is, i.WellFormed) →
    (is.foldl Program.push p).WellFormed
  | [], _, h, _ => h
  | i :: _, _, h, his =>
    (h.push (his i (List.mem_cons_self ..))).foldl_push fun j hj => his j (List.mem_cons_of_mem _ hj)

theorem instructions_foldl_push : ∀ (is : List Instruction) (p : Program),
    (is.foldl push p).instructions = p.instructions ++ is
  | [], p => (List.append_nil _).symm
  | i :: is, p => by
    rw [List.foldl_cons, instructions_foldl_push is, instructions_push, List.append_assoc, List.singleton_append]

/-- The program of these instructions. -/
def ofInstructions (is : List Instruction) : Program := is.foldl push empty

@[simp] theorem instructions_ofInstructions (is : List Instruction) : (ofInstructions is).instructions = is :=
  instructions_foldl_push is empty

theorem wellFormed_ofInstructions {is : List Instruction} (h : ∀ i ∈ is, i.WellFormed) : (ofInstructions is).WellFormed :=
  wellFormed_empty.foldl_push h

/-- Well-formed programs of the same instructions are the same. -/
theorem WellFormed.eq_of_instructions_eq {p q : Program} (hp : p.WellFormed) (hq : q.WellFormed)
    (h : p.instructions = q.instructions) : p = q := by
  have hused : p.qubitsUsed = q.qubitsUsed := by
    by_cases hnil : p.instructions = []
    · rw [hp.unused hnil, hq.unused (h ▸ hnil)]
    · obtain ⟨l, hl, hlle, hlused⟩ := hp.used hnil
      obtain ⟨m, hm, hmle, hmused⟩ := hq.used (h ▸ hnil)
      have hindices : p.indices = q.indices := by rw [indices, indices, h]
      rw [hindices] at hl hlle
      have hlm : l = m := UInt64.le_antisymm (hmle l hl) (hlle m hm)
      exact UInt64.toNat_inj.1 (by rw [hlused, hmused, hlm])
  cases p
  cases q
  rw [Program.mk.injEq]
  exact ⟨h, hused⟩

/-- **A program fits a number of qubits exactly when its indices lie below it.** -/
theorem WellFormed.qubitsUsed_le_iff {p : Program} (h : p.WellFormed) (hp : p.instructions ≠ []) (n : UInt64) :
    p.qubitsUsed ≤ n ↔ ∀ i ∈ p.instructions, ∀ q ∈ i.qubits, q < n := by
  obtain ⟨l, hl, hlle, hlused⟩ := h.used hp
  rw [UInt64.le_iff_toNat_le, hlused]
  constructor
  · intro hn i hi q hq
    have := hlle q (mem_indices.2 ⟨i, hi, hq⟩)
    rw [UInt64.le_iff_toNat_le] at this
    rw [UInt64.lt_iff_toNat_lt]
    omega
  · intro hall
    obtain ⟨i, hi, hli⟩ := mem_indices.1 hl
    have := hall i hi l hli
    rw [UInt64.lt_iff_toNat_lt] at this
    omega

theorem WellFormed.fits_iff {p : Program} (h : p.WellFormed) (hp : p.instructions ≠ []) {limit : Option UInt64} :
    (∀ n ∈ limit, p.qubitsUsed ≤ n) ↔ Grammar.Fits limit p.instructions :=
  forall₂_congr fun n _ => h.qubitsUsed_le_iff hp n

end Program
end QuantumKernel
