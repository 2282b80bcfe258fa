import QuantumKernel.Frontend.GateList
import QuantumKernel.Proofs.Cleaning
import QuantumKernel.Proofs.Denotation
import QuantumKernel.Proofs.WellFormed
/-! # Reading — what the lines of a source make of a program

Lines are read one after the other (`extend_append`), and each is empty, stands for an instruction or has a fault.  So
either the lines stand for instructions together, which are added in order (`extend_of_standTogether`), or the first line
with a fault decides (`extend_of_fault`).  At every point on the way the program is well formed.
-/
namespace QuantumKernel

namespace Grammar

/-- A clean line is accepted when it is empty or stands for an instruction. -/
def Accepted (line : Text) : Prop := line = [] ∨ ∃ i, Denotes line i

/-- Clean lines stand for instructions together, one for each line that is not empty. -/
def StandTogether (ls : List Text) (is : List Instruction) : Prop := List.Forall₂ Denotes (ls.filter (· ≠ [])) is

theorem StandTogether.exists_denotes {ls : List Text} {is : List Instruction} (h : StandTogether ls is) {l : Text}
    (hl : l ∈ ls) (hne : l ≠ []) : ∃ i ∈ is, Denotes l i :=
  exists_mem_of_forall₂ h (List.mem_filter.2 ⟨hl, by simpa using hne⟩)

theorem StandTogether.exists_line {ls : List Text} {is : List Instruction} (h : StandTogether ls is) {i : Instruction}
    (hi : i ∈ is) : ∃ l ∈ ls, Denotes l i := by
  obtain ⟨l, hl, hdenotes⟩ := exists_mem_of_forall₂ (List.Forall₂.flip h) hi
  exact ⟨l, (List.mem_filter.1 hl).1, hdenotes⟩

theorem StandTogether.accepted {ls : List Text} {is : List Instruction} (h : StandTogether ls is) :
    ∀ l ∈ ls, Accepted l := by
  intro l hl
  by_cases hnil : l = []
  · exact Or.inl hnil
  · obtain ⟨i, -, hi⟩ := h.exists_denotes hl hnil
    exact Or.inr ⟨i, hi⟩

theorem StandTogether.wellFormed {ls : List Text} {is : List Instruction} (h : StandTogether ls is) :
    ∀ i ∈ is, i.WellFormed := by
  intro i hi
  obtain ⟨line, -, hline⟩ := h.exists_line hi
  exact hline.1

/-- No instruction comes of lines exactly when all are empty. -/
theorem StandTogether.eq_nil_iff {ls : List Text} {is : List Instruction} (h : StandTogether ls is) :
    is = [] ↔ ∀ l ∈ ls, l = [] := by
  constructor
  · intro his l hl
    by_contra hne
    obtain ⟨i, hi, -⟩ := h.exists_denotes hl hne
    rw [his] at hi
    cases hi
  · intro hblank
    by_contra hne
    obtain ⟨i, hi⟩ := List.exists_mem_of_ne_nil is hne
    obtain ⟨l, hl, hdenotes⟩ := h.exists_line hi
    exact hdenotes.ne_nil (hblank l hl)

/-- **Lines that are accepted one by one stand for instructions together.** -/
theorem exists_standTogether : ∀ {ls : List Text}, (∀ l ∈ ls, Accepted l) → ∃ is, StandTogether ls is
  | [], _ => ⟨[], .nil⟩
  | line :: ls, h => by
    obtain ⟨is, his⟩ := exists_standTogether fun l hl => h l (List.mem_cons_of_mem _ hl)
    unfold StandTogether at his ⊢
    by_cases hline : line = []
    · exact ⟨is, by rwa [List.filter_cons_of_neg (by simpa using hline)]⟩
    · obtain ⟨i, hi⟩ := (h line (List.mem_cons_self ..)).resolve_left hline
      exact ⟨i :: is, by rw [List.filter_cons_of_pos (by simpa using hline)]; exact .cons hi his⟩

end Grammar

namespace Program

open Grammar (Accepted StandTogether)

/-! ## The lines in order -/

theorem extend_cons_nil (p : Program) (n : Nat) (rest : List Text) : p.extend n ([] :: rest) = p.extend (n + 1) rest := rfl

theorem extend_cons_of_ok {line : Text} {i : Instruction} (hi : Instruction.ofLine line = .ok i) (hne : line ≠ [])
    (p : Program) (n : Nat) (rest : List Text) : p.extend n (line :: rest) = (p.push i).extend (n + 1) rest := by
  rw [extend, if_neg hne, hi]

theorem extend_cons_of_error {line : Text} {fault : Fault} (hf : Instruction.ofLine line = .error fault) (hne : line ≠ [])
    (p : Program) (n : Nat) (rest : List Text) : p.extend n (line :: rest) = .error (.badLine n line fault) := by
  rw [extend, if_neg hne, hf]

/-- **Reading lines is reading some of them, and then the others.** -/
theorem extend_append : ∀ (a b : List Text) (p : Program) (n : Nat),
    p.extend n (a ++ b) = (p.extend n a).bind fun q => q.extend (n + a.length) b
  | [], _, _, _ => rfl
  | line :: a, b, p, n => by
    have hnumber : n + 1 + a.length = n + (line :: a).length := by rw [List.length_cons]; omega
    rw [List.cons_append]
    by_cases hline : line = []
    · subst hline
      rw [extend_cons_nil, extend_cons_nil, extend_append a b, hnumber]
    · cases hread : Instruction.ofLine line with
      | error fault =>
        rw [extend_cons_of_error hread hline, extend_cons_of_error hread hline]
        rfl
      | ok i => rw [extend_cons_of_ok hread hline, extend_cons_of_ok hread hline, extend_append a b, hnumber]

theorem extend_blanks : ∀ {ls : List Text}, (∀ l ∈ ls, l = []) → ∀ (p : Program) (n : Nat), p.extend n ls = .ok p
  | [], _, _, _ => rfl
  | l :: ls, h, p, n => by
    rw [h l (List.mem_cons_self ..), extend_cons_nil, extend_blanks (fun k hk => h k (List.mem_cons_of_mem _ hk))]

/-! ## Lines without a fault -/

/-- **Lines without a fault add their instructions in order.** -/
theorem extend_of_standTogether : ∀ {ls : List Text} {is : List Instruction}, StandTogether ls is →
    ∀ (p : Program) (n : Nat), p.extend n ls = .ok (is.foldl push p)
  | [], _, h, _, _ => by
    cases h
    rfl
  | line :: ls, is, h, p, n => by
    unfold StandTogether at h
    by_cases hline : line = []
    · subst hline
      rw [List.filter_cons_of_neg (by simp)] at h
      rw [extend_cons_nil, extend_of_standTogether h]
    · rw [List.filter_cons_of_pos (by simpa using hline)] at h
      cases h with
      | cons hi h =>
        rw [extend_cons_of_ok (Instruction.ofLine_eq_ok_iff.2 hi) hline, extend_of_standTogether h, List.foldl_cons]

/-! ## The first line with a fault -/

/-- **The first line with a fault ends the reading**, whatever comes after it. -/
theorem extend_of_fault {before after : List Text} {line : Text} {fault : Fault} (hbefore : ∀ l ∈ before, Accepted l)
    (hline : line ≠ []) (hf : Instruction.ofLine line = .error fault) (p : Program) (n : Nat) :
    p.extend n (before ++ line :: after) = .error (.badLine (n + before.length) line fault) := by
  obtain ⟨is, his⟩ := Grammar.exists_standTogether hbefore
  rw [extend_append, extend_of_standTogether his]
  exact extend_cons_of_error hf hline _ _ _

/-- Either every line is accepted, or there is a first line that is not, and it has a fault. -/
theorem accepted_or_fault : ∀ ls : List Text, (∀ l ∈ ls, Accepted l) ∨
    ∃ before line after fault, ls = before ++ line :: after ∧ (∀ l ∈ before, Accepted l) ∧ line ≠ [] ∧
      Instruction.ofLine line = .error fault
  | [] => Or.inl (List.forall_mem_nil _)
  | line :: ls => by
    by_cases hline : Accepted line
    · rcases accepted_or_fault ls with h | ⟨before, bad, after, fault, hls, hbefore, hbad⟩
      · exact Or.inl (List.forall_mem_cons.2 ⟨hline, h⟩)
      · exact Or.inr ⟨line :: before, bad, after, fault, by rw [hls, List.cons_append],
          List.forall_mem_cons.2 ⟨hline, hbefore⟩, hbad⟩
    · obtain ⟨hne, hnone⟩ := not_or.1 hline
      obtain ⟨fault, hf⟩ := Instruction.exists_ofLine_eq_error_iff.2 hnone
      exact Or.inr ⟨[], line, ls, fault, rfl, List.forall_mem_nil _, hne, hf⟩

/-! ## Every point of the reading -/

theorem wellFormed_of_extend {p q : Program} {n : Nat} {ls : List Text} (hp : p.WellFormed) (h : p.extend n ls = .ok q) :
    q.WellFormed := by
  rcases accepted_or_fault ls with hall | ⟨before, line, after, fault, rfl, hbefore, hline, hf⟩
  · obtain ⟨is, his⟩ := Grammar.exists_standTogether hall
    rw [extend_of_standTogether his] at h
    obtain rfl := Except.ok.inj h
    exact hp.foldl_push his.wellFormed
  · rw [extend_of_fault hbefore hline hf] at h
    cases h

theorem ofLines_eq_ok_iff {ls : List Text} {p : Program} :
    ofLines ls = .ok p ↔ empty.extend 1 ls = .ok p ∧ p.instructions ≠ [] := by
  unfold ofLines
  cases empty.extend 1 ls with
  | error rejection => simp
  | ok q =>
    by_cases hq : q.instructions = []
    · simp only [if_pos hq, reduceCtorEq, false_iff]
      rintro ⟨h, hp⟩
      exact hp (Except.ok.inj h ▸ hq)
    · simp only [if_neg hq, Except.ok.injEq]
      exact ⟨fun h => ⟨h, h ▸ hq⟩, And.left⟩

theorem within_eq_ok_iff {capacity : Option UInt64} {p q : Program} :
    within capacity p = .ok q ↔ p = q ∧ ∀ n ∈ capacity, p.qubitsUsed ≤ n := by
  unfold within
  cases capacity with
  | none => simp
  | some n =>
    by_cases hn : p.qubitsUsed > n
    · simp [hn]
    · simp [hn, UInt64.not_lt.1 hn]

theorem ofSource_eq_ok_iff {source : Text} {capacity : Option UInt64} {p : Program} :
    ofSource source capacity = .ok p ↔
      empty.extend 1 (Text.lines source) = .ok p ∧ p.instructions ≠ [] ∧ ∀ n ∈ capacity, p.qubitsUsed ≤ n := by
  unfold ofSource
  rw [← and_assoc, ← ofLines_eq_ok_iff]
  cases ofLines (Text.lines source) with
  | error rejection => simp [Except.bind]
  | ok q =>
    simp only [Except.bind, within_eq_ok_iff, Except.ok.injEq]
    exact and_congr_right fun h => by rw [h]

end Program

namespace Frontend.GateList

theorem value_translate (unit : CompilationUnit) : (translate unit).value =
    (Program.ofSource unit.source unit.target.qubits).mapError (Rejection.toError name unit.target) := by
  unfold translate
  cases Program.ofSource unit.source unit.target.qubits <;> rfl

theorem value_translate_eq_ok_iff {unit : CompilationUnit} {p : Program} :
    (translate unit).value = .ok p ↔ Program.ofSource unit.source unit.target.qubits = .ok p := by
  rw [value_translate]
  cases Program.ofSource unit.source unit.target.qubits <;> simp [Except.mapError]

/-- **A program is well formed at every point of its reading**: after any lines that were read without a fault, also
where a later line or the target's capacity ends in an error.  From there reading goes on with the other lines, and
counting the qubits of the next instruction adds one to an index below the largest word. -/
theorem wellFormed_at_every_point (staged : Text) (target : Target) :
    (∀ done rest p, Text.lines staged = done ++ rest → Program.empty.extend 1 done = .ok p →
      p.WellFormed ∧ Program.empty.extend 1 (Text.lines staged) = p.extend (1 + done.length) rest ∧
        ∀ line i, rest.head? = some line → line ≠ [] → Instruction.ofLine line = .ok i →
          ∃ largest, i.qubits.max? = some largest ∧ largest.toNat ≠ UInt64.size - 1 ∧
            (p.push i).qubitsUsed.toNat = max p.qubitsUsed.toNat (largest.toNat + 1)) ∧
      ∀ p, (translate ⟨staged, target⟩).value = .ok p →
        p.WellFormed ∧ p.instructions ≠ [] ∧ ∀ n ∈ target.qubits, p.qubitsUsed ≤ n := by
  constructor
  · intro done rest p hlines hread
    refine ⟨Program.wellFormed_of_extend Program.wellFormed_empty hread, ?_, ?_⟩
    · rw [hlines, Program.extend_append, hread]
      rfl
    · intro line i _ _ hi
      obtain ⟨largest, -, hmax, -, hbound⟩ := (Instruction.wellFormed_of_ofLine hi).exists_largest
      exact ⟨largest, hmax, Nat.ne_of_lt hbound, Program.toNat_qubitsUsed_push p hmax hbound⟩
  · intro p hp
    obtain ⟨hread, hne, hcapacity⟩ := Program.ofSource_eq_ok_iff.1 (value_translate_eq_ok_iff.1 hp)
    exact ⟨Program.wellFormed_of_extend Program.wellFormed_empty hread, hne, hcapacity⟩

end Frontend.GateList
end QuantumKernel
