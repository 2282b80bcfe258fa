import QuantumKernel.Proofs.Outcome
/-! # Threshold — what a target decides

A target's limit is compared with the qubits of a program that was read without it.  So an error of the source is the same
for every target (`result_of_unlimited_error`), and a program is accepted by every target whose limit is no lower than one
that accepts it (`result_mono`).
-/
namespace QuantumKernel

namespace Program

theorem WellFormed.qubitsUsed_le_iff_indices {p : Program} (h : p.WellFormed) (hp : p.instructions ≠ []) (n : UInt64) :
    p.qubitsUsed ≤ n ↔ ∀ q ∈ p.indices, q < n := by
  rw [h.qubitsUsed_le_iff hp]
  constructor
  · intro hall q hq
    obtain ⟨i, hi, hqi⟩ := mem_indices.1 hq
    exact hall i hi q hqi
  · intro hall i hi q hq
    exact hall q (mem_indices.2 ⟨i, hi, hq⟩)

end Program

namespace Frontend

variable {source : Text}

/-- An error that comes without a limit comes with every target. -/
theorem result_of_unlimited_error {name : Text} {e : CompileError}
    (h : gateList.pipeline.result source ⟨name, none⟩ = .error e) (target : Target) :
    gateList.pipeline.result source target = .error e := by
  apply Outcome.result_eq
  cases result_eq_iff.1 h with
  | badLine hbad hf => exact .badLine hbad hf
  | blank hblank => exact .blank hblank
  | tooManyQubits _ _ hlimit _ => cases hlimit

/-- **A program that one target accepts is accepted by every target with no lower limit.** -/
theorem result_mono {t u : Target} (h : ∀ n ∈ u.qubits, ∃ m ∈ t.qubits, m ≤ n) {p : Program}
    (hp : gateList.pipeline.result source t = .ok p) : gateList.pipeline.result source u = .ok p := by
  obtain ⟨hstands, hfits, hwf⟩ := result_eq_ok_iff.1 hp
  refine result_eq_ok_iff.2 ⟨hstands, fun n hn i hi q hq => ?_, hwf⟩
  obtain ⟨m, hm, hmn⟩ := h n hn
  exact UInt64.lt_of_lt_of_le (hfits m hm i hi q hq) hmn

theorem result_unlimited_of_ok {t : Target} {p : Program} (hp : gateList.pipeline.result source t = .ok p) (name : Text) :
    gateList.pipeline.result source ⟨name, none⟩ = .ok p :=
  result_mono (fun _ hn => by cases hn) hp

theorem result_unlimited_eq (source t u : Text) :
    gateList.pipeline.result source ⟨t, none⟩ = gateList.pipeline.result source ⟨u, none⟩ := by
  cases h : gateList.pipeline.result source ⟨u, none⟩ with
  | error e => exact result_of_unlimited_error h _
  | ok p => exact result_unlimited_of_ok h t

theorem result_of_limit {name : Text} {p : Program} (hp : gateList.pipeline.result source ⟨name, none⟩ = .ok p)
    (target : Text) (n : UInt64) :
    ((∀ q ∈ p.indices, q < n) → gateList.pipeline.result source ⟨target, some n⟩ = .ok p) ∧
      ((∃ q ∈ p.indices, n ≤ q) → gateList.pipeline.result source ⟨target, some n⟩ =
        .error ((Rejection.tooManyQubits p.qubitsUsed n).toError GateList.name ⟨target, some n⟩)) := by
  obtain ⟨hstands, -, hwf⟩ := result_eq_ok_iff.1 hp
  have hle := hwf.qubitsUsed_le_iff_indices (Grammar.standsFor_iff.1 hstands).2 n
  constructor
  · intro hall
    refine Outcome.result_eq (.program hstands hwf fun m hm => ?_)
    rw [← Option.some.inj hm]
    exact hle.2 hall
  · rintro ⟨q, hq, hnq⟩
    refine Outcome.result_eq (.tooManyQubits hstands hwf rfl ?_)
    rw [← UInt64.not_le, hle]
    exact fun hall => UInt64.not_le.2 (hall q hq) hnq

/-- **A target matters only by its limit, and its limit only as a threshold.**  Without a limit the result does not depend
on the target, and an error is the error for every target.  A program is accepted under a limit when every index that
it names is below it, and otherwise the target is said not to have the qubits that the program uses.  So a higher limit, or
none, accepts what a lower one does, and two targets that accept a source agree on its program. -/
theorem limit_is_threshold (source : Text) :
    (∀ t u, gateList.pipeline.result source ⟨t, none⟩ = gateList.pipeline.result source ⟨u, none⟩) ∧
    (∀ t e, gateList.pipeline.result source ⟨t, none⟩ = .error e →
      ∀ target, gateList.pipeline.result source target = .error e) ∧
    (∀ t p, gateList.pipeline.result source ⟨t, none⟩ = .ok p → ∀ name n,
      ((∀ q ∈ p.indices, q < n) → gateList.pipeline.result source ⟨name, some n⟩ = .ok p) ∧
      ((∃ q ∈ p.indices, n ≤ q) → gateList.pipeline.result source ⟨name, some n⟩ =
        .error (.unsupportedTarget GateList.name name
          ("kernel uses ".toList ++ Text.decimal p.qubitsUsed.toNat ++ " qubits but the target provides ".toList
            ++ Text.decimal n.toNat)))) ∧
    (∀ t u : Target, (∀ n ∈ u.qubits, ∃ m ∈ t.qubits, m ≤ n) → ∀ p,
      gateList.pipeline.result source t = .ok p → gateList.pipeline.result source u = .ok p) ∧
    ∀ t u p q, gateList.pipeline.result source t = .ok p → gateList.pipeline.result source u = .ok q → p = q := by
  refine ⟨result_unlimited_eq source, fun t e => result_of_unlimited_error, fun t p hp name n => result_of_limit hp name n,
    fun t u h p => result_mono h, fun t u p q hp hq => ?_⟩
  -- both are the program that comes without a limit
  have hsame := (result_unlimited_of_ok hp []).symm.trans (result_unlimited_of_ok hq [])
  exact Except.ok.inj hsame

example : gateList.pipeline.result "H 0\nCNOT 1 2".toList ⟨"chip".toList, some 2⟩ =
    .error (.unsupportedTarget GateList.name "chip".toList
      "kernel uses 3 qubits but the target provides 2".toList) := by rfl

end Frontend
end QuantumKernel
