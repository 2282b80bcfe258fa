import QuantumKernel.Frontend.Uppercase
import QuantumKernel.Proofs.Observation
/-! # Capitals — a text in capitals stays as it is

No code point that the tables lead to is one that they start from (`not_cased_of_mem_capitals`).  There are too many of
both to compare each with each, so the two lists are compared as sets of bits: a code point stands for its place in a
number, and two numbers without a common bit have no code point in common.  What is left goes character by character: the
uppercase form of a text is its own uppercase form (`uppercase_uppercase`).
-/
namespace QuantumKernel
namespace Text

/-! ## Sets of numbers as bits -/

/-- The number whose bits are set at the numbers of a list. -/
def bits (l : List Nat) : Nat := l.foldr (fun n set => set ||| 1 <<< n) 0

theorem testBit_bits_iff {n : Nat} : ∀ {l : List Nat}, (bits l).testBit n = true ↔ n ∈ l
  | [] => by simp [bits]
  | m :: l => by
    have hstep : bits (m :: l) = bits l ||| 1 <<< m := rfl
    rw [hstep, Nat.testBit_or, Nat.one_shiftLeft, Nat.testBit_two_pow, Bool.or_eq_true, testBit_bits_iff,
      decide_eq_true_eq, List.mem_cons, or_comm, eq_comm]

/-- **Lists whose numbers have no bit in common have no element in common.** -/
theorem not_mem_of_bits {l m : List Nat} (h : bits l &&& bits m = 0) {n : Nat} (hn : n ∈ m) : n ∉ l := by
  intro hl
  have hbit : (bits l &&& bits m).testBit n = true := by
    rw [Nat.testBit_and, testBit_bits_iff.2 hl, testBit_bits_iff.2 hn]
    rfl
  rw [h, Nat.zero_testBit] at hbit
  cases hbit

/-! ## The code points of the tables -/

/-- The code points of a run, in order. -/
def CaseRun.members (r : CaseRun) : List Nat :=
  (List.range ((r.last - r.first) / r.step + 1)).map fun k => r.first + k * r.step

/-- The code points that the tables start from. -/
def cased : List Nat := caseRuns.flatMap CaseRun.members ++ caseExpansions.map Prod.fst

/-- The code points that the tables lead to, those of expansions one by one. -/
def capitals : List Nat := caseRuns.flatMap (fun r => r.members.map r.apply) ++ caseExpansions.flatMap Prod.snd

theorem not_cased_of_mem_capitals {n : Nat} : n ∈ capitals → n ∉ cased :=
  not_mem_of_bits (by decide +kernel)

theorem isValidChar_of_mem_capitals : ∀ n ∈ capitals, n.isValidChar := by decide +kernel

theorem CaseRun.mem_members {r : CaseRun} {n : Nat} (h : r.covers n = true) : n ∈ r.members := by
  unfold covers at h
  simp only [Bool.and_eq_true, decide_eq_true_eq, beq_iff_eq] at h
  obtain ⟨⟨hfirst, hlast⟩, hstep⟩ := h
  have hdiv : (n - r.first) / r.step ≤ (r.last - r.first) / r.step :=
    Nat.div_le_div_right (Nat.sub_le_sub_right hlast r.first)
  have hmul : (n - r.first) / r.step * r.step = n - r.first := Nat.div_mul_cancel (Nat.dvd_of_mod_eq_zero hstep)
  refine List.mem_map.2 ⟨(n - r.first) / r.step, List.mem_range.2 (by omega), ?_⟩
  rw [hmul]
  omega

theorem upperCodePoints_of_not_cased {n : Nat} (h : n ∉ cased) : upperCodePoints n = [n] := by
  have hexpansion : caseExpansions.lookup n = none := by
    refine List.lookup_eq_none_iff.2 fun entry hentry => bne_iff_ne.2 fun heq => h ?_
    exact List.mem_append_right _ (heq ▸ List.mem_map_of_mem hentry)
  have hrun : caseRuns.find? (·.covers n) = none := by
    refine List.find?_eq_none.2 fun r hr hcovers => h ?_
    exact List.mem_append_left _ (List.mem_flatMap.2 ⟨r, hr, CaseRun.mem_members hcovers⟩)
  rw [upperCodePoints, hexpansion, upperCodePoint, hrun]
  rfl

/-- **An uppercase form is made of capitals, unless it is the code point itself.** -/
theorem mem_upperCodePoints {n m : Nat} (h : m ∈ upperCodePoints n) : m ∈ capitals ∨ m = n ∧ upperCodePoints n = [n] := by
  cases hexpansion : caseExpansions.lookup n with
  | some form =>
    rw [upperCodePoints, hexpansion, Option.getD_some] at h
    obtain ⟨before, after, hsplit, -⟩ := List.lookup_eq_some_iff.1 hexpansion
    have hentry : (n, form) ∈ caseExpansions := by rw [hsplit]; simp
    exact Or.inl (List.mem_append_right _ (List.mem_flatMap.2 ⟨_, hentry, h⟩))
  | none =>
    have hform : upperCodePoints n = [upperCodePoint n] := by rw [upperCodePoints, hexpansion, Option.getD_none]
    rw [hform, List.mem_singleton] at h
    rw [hform, h, upperCodePoint]
    cases hrun : caseRuns.find? (·.covers n) with
    | none => exact Or.inr ⟨rfl, rfl⟩
    | some r =>
      have hcovers := List.find?_some hrun
      have hmember : n ∈ r.members := CaseRun.mem_members hcovers
      refine Or.inl (List.mem_append_left _ (List.mem_flatMap.2 ⟨r, List.mem_of_find?_eq_some hrun, ?_⟩))
      exact List.mem_map_of_mem hmember

theorem upperCodePoints_of_mem {n m : Nat} (h : m ∈ upperCodePoints n) : upperCodePoints m = [m] := by
  rcases mem_upperCodePoints h with hcapital | ⟨rfl, hself⟩
  · exact upperCodePoints_of_not_cased (not_cased_of_mem_capitals hcapital)
  · exact hself

/-! ## Characters and texts -/

/-- The code points of an uppercase form are those of its characters. -/
theorem toNat_of_mem_upperCodePoints {c : Char} {n : Nat} (h : n ∈ upperCodePoints c.toNat) :
    (Char.ofNat n).toNat = n := by
  rcases mem_upperCodePoints h with hcapital | ⟨rfl, -⟩
  · rw [Char.ofNat, dif_pos (isValidChar_of_mem_capitals n hcapital)]
    rfl
  · rw [Char.ofNat_toNat]

/-- **A character of an uppercase form is its own uppercase form.** -/
theorem upperChar_of_mem {c d : Char} (h : d ∈ upperChar c) : upperChar d = [d] := by
  obtain ⟨n, hn, rfl⟩ := List.mem_map.1 h
  rw [upperChar, toNat_of_mem_upperCodePoints hn, upperCodePoints_of_mem hn]
  rfl

theorem uppercase_eq_self : ∀ {t : Text}, (∀ c ∈ t, upperChar c = [c]) → uppercase t = t
  | [], _ => rfl
  | c :: t, h => by
    have hrest : uppercase t = t := uppercase_eq_self fun d hd => h d (List.mem_cons_of_mem _ hd)
    have hsplit : uppercase (c :: t) = upperChar c ++ uppercase t := rfl
    rw [hsplit, h c (List.mem_cons_self ..), hrest]
    rfl

theorem uppercase_uppercase (t : Text) : uppercase (uppercase t) = uppercase t := by
  refine uppercase_eq_self fun d hd => ?_
  obtain ⟨c, -, hc⟩ := List.mem_flatMap.1 hd
  exact upperChar_of_mem hc

end Text

namespace Frontend

/-- **The front-end `toy` accepts every source, and its result stays as it is.**  The source is translated as the caller gave
it, character by character, so two sources after one another come to their results after one another; and a result that
is compiled again, for any target, is the result. -/
theorem uppercase_total_and_stable (a b : Text) (target : Target) :
    (uppercase.pipeline.staged a target).2 = ⟨a, target⟩ ∧
    ∃ x y : TextIr,
      (uppercase.pipeline.run a target).value = (.ok x, uppercase.pipeline) ∧
      (uppercase.pipeline.run b target).value = (.ok y, uppercase.pipeline) ∧
      (uppercase.pipeline.run (a ++ b) target).value = (.ok ⟨x.body ++ y.body⟩, uppercase.pipeline) ∧
      x.body = a.flatMap Text.upperChar ∧
      ∀ again, (uppercase.pipeline.run x.body again).value = (.ok x, uppercase.pipeline) := by
  have hrun : ∀ source target, (uppercase.pipeline.run source target).value =
      (.ok ⟨Text.uppercase source⟩, uppercase.pipeline) := fun source target => rfl
  refine ⟨rfl, ⟨Text.uppercase a⟩, ⟨Text.uppercase b⟩, hrun a target, hrun b target, ?_, rfl, fun again => ?_⟩
  · rw [hrun, Text.uppercase_append]
  · rw [hrun, Text.uppercase_uppercase]

example : uppercase.pipeline.result "straße ǆ ﬃ".toList ⟨"sim".toList, none⟩ = .ok ⟨"STRASSE Ǆ FFI".toList⟩ := by
  decide +kernel

end Frontend
end QuantumKernel
