import Mathlib.Data.List.Forall2
import QuantumKernel.Pipeline.Session
import QuantumKernel.Frontend.Scripted
/-! # Observation — what a pipeline's front-end is given, call after call

A front-end under observation does what it does otherwise, and also keeps what `translate` is called with
(`run_observed`).  So what it has kept after a session tells what `translate` received: one unit for each call, made of
that call's source and target alone (`getElem?_received`).
-/
namespace QuantumKernel

namespace Frontend

variable {σ α : Type}

/-- The front-end with a memory of each state and unit that `translate` is called with. -/
def observed (frontend : Frontend σ α) : Frontend (σ × List (σ × CompilationUnit)) α where
  name state := frontend.name state.1
  normalize state unit := do
    let (staged, next) ← frontend.normalize state.1 unit
    return (staged, (next, state.2))
  translate state unit := do
    let (result, next) ← frontend.translate state.1 unit
    return (result, (next, state.2 ++ [(state.1, unit)]))

end Frontend

namespace Pipeline

variable {σ α : Type}

namespace Step

/-- The step on a front-end under observation: an edit leaves the memory alone. -/
def observed : Step σ → Step (σ × List (σ × CompilationUnit))
  | run source target => .run source target
  | compile source target => .compile source target
  | edit change => .edit fun state => (change state.1, state.2)
  | rewrap => .rewrap

/-- The source and target of a call; an edit and a rewrap are none. -/
def call? : Step σ → Option (Text × Target)
  | run source target => some (source, target)
  | compile source target => some (source, target)
  | edit _ => none
  | rewrap => none

def isCall (step : Step σ) : Bool := step.call?.isSome

end Step

def observed (p : Pipeline σ α) (memory : List (σ × CompilationUnit)) : Pipeline (σ × List (σ × CompilationUnit)) α :=
  ⟨p.frontend.observed, (p.state, memory)⟩

/-- What `translate` receives in the course of steps: each time the front-end's state, and the unit. -/
def received [ToIr α] (p : Pipeline σ α) (steps : List (Step σ)) : List (σ × CompilationUnit) :=
  ((p.observed []).after (steps.map Step.observed)).state.2

/-- The state and the text that `normalize` makes of a fresh copy of a source, with the target. -/
def staged (p : Pipeline σ α) (source : Text) (target : Target) : σ × CompilationUnit :=
  let normalized := (p.frontend.normalize p.state ⟨source, target⟩).value
  (normalized.2, ⟨normalized.1, target⟩)

/-! ## Observation changes nothing else -/

/-- **A run under observation is the run, and keeps what was staged.** -/
theorem run_observed (p : Pipeline σ α) (memory : List (σ × CompilationUnit)) (source : Text) (target : Target) :
    (p.observed memory).run source target =
      ⟨((p.run source target).value.1,
        (p.run source target).value.2.observed (memory ++ [p.staged source target])), (p.run source target).log⟩ := by
  refine Logged.ext rfl ?_
  simp only [run, observed, Frontend.observed, name, Logged.log_bind, Logged.log_pure, Logged.value_bind,
    Logged.value_pure, List.append_nil]

def receivedIn (p : Pipeline σ α) (step : Step σ) : List (σ × CompilationUnit) :=
  (step.call?.map fun call => p.staged call.1 call.2).toList

theorem perform_observed [ToIr α] (p : Pipeline σ α) (memory : List (σ × CompilationUnit)) (step : Step σ) :
    (p.observed memory).perform step.observed =
      ⟨((p.perform step).value.1, (p.perform step).value.2.observed (memory ++ p.receivedIn step)),
        (p.perform step).log⟩ := by
  cases step with
  | run source target =>
    simp only [Step.observed, perform, run_observed]
    rfl
  | compile source target =>
    simp only [Step.observed, perform, compile, run_observed]
    rfl
  | edit change =>
    simp only [receivedIn, Step.call?, Option.map_none, Option.toList_none, List.append_nil]
    rfl
  | rewrap =>
    simp only [receivedIn, Step.call?, Option.map_none, Option.toList_none, List.append_nil]
    rfl

-- what steps add to the memory does not depend on what is in it
theorem exists_after_observed [ToIr α] : ∀ (steps : List (Step σ)) (p : Pipeline σ α), ∃ more, ∀ memory,
    (p.observed memory).after (steps.map Step.observed) = (p.after steps).observed (memory ++ more)
  | [], _ => ⟨[], fun memory => by rw [List.append_nil]; rfl⟩
  | step :: rest, p => by
    obtain ⟨more, hmore⟩ := exists_after_observed rest (p.perform step).value.2
    refine ⟨p.receivedIn step ++ more, fun memory => ?_⟩
    rw [List.map_cons, after_cons, perform_observed, hmore, after_cons, List.append_assoc]

/-- **A session under observation is the session**, and the memory grows by what `translate` received. -/
theorem after_observed [ToIr α] (p : Pipeline σ α) (memory : List (σ × CompilationUnit)) (steps : List (Step σ)) :
    (p.observed memory).after (steps.map Step.observed) = (p.after steps).observed (memory ++ p.received steps) := by
  obtain ⟨more, hmore⟩ := exists_after_observed steps p
  rw [received, hmore, hmore]
  rfl

theorem transcript_observed [ToIr α] : ∀ (steps : List (Step σ)) (p : Pipeline σ α)
    (memory : List (σ × CompilationUnit)),
    (p.observed memory).transcript (steps.map Step.observed) = p.transcript steps
  | [], _, _ => rfl
  | step :: rest, p, memory => by
    simp only [List.map_cons, transcript, perform_observed]
    rw [transcript_observed rest]

/-! ## What translate receives -/

theorem received_cons [ToIr α] (p : Pipeline σ α) (step : Step σ) (rest : List (Step σ)) :
    p.received (step :: rest) = p.receivedIn step ++ (p.perform step).value.2.received rest := by
  rw [received, List.map_cons, after_cons, perform_observed, after_observed]
  rfl

theorem received_append [ToIr α] : ∀ (a b : List (Step σ)) (p : Pipeline σ α),
    p.received (a ++ b) = p.received a ++ (p.after a).received b
  | [], _, _ => rfl
  | step :: a, b, p => by
    rw [List.cons_append, received_cons, received_append a b, received_cons, after_cons, List.append_assoc]

theorem length_receivedIn (p : Pipeline σ α) (step : Step σ) :
    (p.receivedIn step).length = [step].countP Step.isCall := by
  cases step <;> rfl

/-- **`translate` is called once in each call.** -/
theorem length_received [ToIr α] : ∀ (steps : List (Step σ)) (p : Pipeline σ α),
    (p.received steps).length = steps.countP Step.isCall
  | [], _ => rfl
  | step :: rest, p => by
    rw [received_cons, List.length_append, length_received rest, length_receivedIn, ← List.countP_append,
      List.singleton_append]

/-- **A call's `translate` receives what was staged for that call**, after the same number of others as there were calls. -/
theorem getElem?_received [ToIr α] (p : Pipeline σ α) {before after : List (Step σ)} {step : Step σ} {source : Text}
    {target : Target} (hcall : step.call? = some (source, target)) :
    (p.received (before ++ step :: after))[before.countP Step.isCall]? = some ((p.after before).staged source target) := by
  have hstep : (p.after before).receivedIn step = [(p.after before).staged source target] := by
    rw [receivedIn, hcall]
    rfl
  rw [received_append, received_cons, hstep, List.getElem?_append_right (Nat.le_of_eq (length_received before p)),
    length_received, Nat.sub_self]
  rfl

theorem frontend_perform [ToIr α] (p : Pipeline σ α) (step : Step σ) :
    (p.perform step).value.2.frontend = p.frontend := by
  cases step <;> rfl

theorem frontend_after [ToIr α] : ∀ (steps : List (Step σ)) (p : Pipeline σ α), (p.after steps).frontend = p.frontend
  | [], _ => rfl
  | step :: rest, p => by rw [after_cons, frontend_after rest, frontend_perform]

/-! ## Compilations for runs, and no rewraps -/

namespace Step

/-- Steps in which runs are replaced by compilations and rewraps are left out. -/
inductive Replaced : List (Step σ) → List (Step σ) → Prop
  | nil : Replaced [] []
  | keep (step : Step σ) {a b : List (Step σ)} : Replaced a b → Replaced (step :: a) (step :: b)
  | compile (source : Text) (target : Target) {a b : List (Step σ)} :
      Replaced a b → Replaced (.run source target :: a) (.compile source target :: b)
  | unwrap {a b : List (Step σ)} : Replaced a b → Replaced (.rewrap :: a) b

end Step

namespace Answer

def isResult : Answer α → Bool
  | ran _ => true
  | compiled _ => true
  | done => false

/-- The answer with its representation put among those of every kind. -/
def boxed [ToIr α] : Answer α → Answer α
  | ran result => .compiled (result.map ToIr.toIr)
  | answer => answer

end Answer

/-- The answers of the calls among steps, with the records that they leave. -/
def results [ToIr α] (p : Pipeline σ α) (steps : List (Step σ)) : List (Logged (Answer α)) :=
  (p.transcript steps).filter fun answer => answer.value.isResult

/-- The same answer, or the same but for being boxed, with the same records. -/
def SameButBoxed [ToIr α] (a b : Logged (Answer α)) : Prop := a.log = b.log ∧ (a.value = b.value ∨ a.value.boxed = b.value)

theorem perform_compile [ToIr α] (p : Pipeline σ α) (source : Text) (target : Target) :
    p.perform (.compile source target) =
      ⟨((p.perform (.run source target)).value.1.boxed, (p.perform (.run source target)).value.2),
        (p.perform (.run source target)).log⟩ := by
  refine Logged.ext rfl ?_
  simp only [perform, compile, Logged.log_bind, Logged.log_pure, List.append_nil]

theorem results_cons [ToIr α] (p : Pipeline σ α) (step : Step σ) (rest : List (Step σ)) :
    p.results (step :: rest) =
      [⟨(p.perform step).value.1, (p.perform step).log⟩].filter (fun answer => answer.value.isResult) ++
        (p.perform step).value.2.results rest := by
  rw [results, transcript, ← List.singleton_append, List.filter_append]
  rfl

/-- **Replacing runs by compilations boxes results, and leaving out rewraps does nothing.** -/
theorem results_replaced [ToIr α] {a b : List (Step σ)} (h : Step.Replaced a b) (p : Pipeline σ α) :
    List.Forall₂ SameButBoxed (p.results a) (p.results b) ∧
      (p.transcript a).flatMap Logged.log = (p.transcript b).flatMap Logged.log ∧ p.after a = p.after b := by
  induction h generalizing p with
  | nil => exact ⟨.nil, rfl, rfl⟩
  | keep step h ih =>
    obtain ⟨hresults, hlog, hafter⟩ := ih (p.perform step).value.2
    refine ⟨?_, ?_, hafter⟩
    · rw [results_cons, results_cons]
      exact List.rel_append (List.forall₂_same.2 fun _ _ => ⟨rfl, Or.inl rfl⟩) hresults
    · rw [transcript, transcript, List.flatMap_cons, List.flatMap_cons, hlog]
  | compile source target h ih =>
    obtain ⟨hresults, hlog, hafter⟩ := ih (p.perform (.run source target)).value.2
    refine ⟨?_, ?_, ?_⟩
    · rw [results_cons, results_cons, perform_compile]
      exact .cons ⟨rfl, Or.inr rfl⟩ hresults
    · rw [transcript, transcript, List.flatMap_cons, List.flatMap_cons, perform_compile, hlog]
    · rw [after_cons, after_cons, perform_compile, hafter]
  | unwrap h ih => exact ih p

/-! ## Front-ends that remember -/

end Pipeline

/-- A front-end that appends an entry for what `translate` sees to a list, which it leaves alone otherwise. -/
structure Frontend.Remembers {σ α β : Type} (frontend : Frontend σ α) (list : σ → List β)
    (entry : CompilationUnit → β) : Prop where
  normalize : ∀ state unit, list (frontend.normalize state unit).value.2 = list state
  translate : ∀ state unit, list (frontend.translate state unit).value.2 = list state ++ [entry unit]

theorem Frontend.remembers_scripted : Frontend.scripted.Remembers Scripted.seen CompilationUnit.sighting :=
  ⟨fun _ _ => rfl, fun _ _ => rfl⟩

namespace Pipeline

theorem remembered_perform [ToIr α] {p : Pipeline σ α} {β : Type} {list : σ → List β} {entry : CompilationUnit → β}
    (h : p.frontend.Remembers list entry) {step : Step σ}
    (hedit : ∀ change, step = .edit change → ∀ state, list (change state) = list state) :
    list (p.perform step).value.2.state = list p.state ++ (p.receivedIn step).map fun r => entry r.2 := by
  have hrun : ∀ source target,
      list (p.run source target).value.2.state = list p.state ++ [entry (p.staged source target).2] :=
    fun source target => (h.translate _ _).trans (congrArg (· ++ _) (h.normalize _ _))
  cases step with
  | run source target => exact hrun source target
  | compile source target => exact hrun source target
  | edit change => exact (hedit change rfl p.state).trans (List.append_nil _).symm
  | rewrap => exact (List.append_nil _).symm

/-- **The list of a front-end that remembers holds an entry for each call**, unless an edit changes it. -/
theorem remembered_after [ToIr α] {β : Type} {list : σ → List β} {entry : CompilationUnit → β} :
    ∀ {steps : List (Step σ)} {p : Pipeline σ α}, p.frontend.Remembers list entry →
      (∀ change, .edit change ∈ steps → ∀ state, list (change state) = list state) →
      list (p.after steps).state = list p.state ++ (p.received steps).map fun r => entry r.2
  | [], p, _, _ => (List.append_nil _).symm
  | step :: rest, p, h, hedit => by
    have hnext : (p.perform step).value.2.frontend.Remembers list entry := by rwa [frontend_perform]
    rw [after_cons, remembered_after hnext fun change hchange => hedit change (List.mem_cons_of_mem _ hchange),
      remembered_perform h fun change hchange => hedit change (hchange ▸ List.mem_cons_self ..), received_cons,
      List.map_append, List.append_assoc]

/-- A scripted front-end has seen what it received, whatever scripts it was given on the way. -/
theorem seen_after (state : Scripted) {steps : List (Step Scripted)}
    (hscript : ∀ change, .edit change ∈ steps → ∃ script, change = (·.rescript script)) :
    ((⟨Frontend.scripted, state⟩ : Pipeline Scripted TextIr).after steps).state.seen =
      state.seen ++ ((⟨Frontend.scripted, state⟩ : Pipeline Scripted TextIr).received steps).map fun r => r.2.sighting := by
  refine remembered_after Frontend.remembers_scripted fun change hchange other => ?_
  obtain ⟨script, rfl⟩ := hscript change hchange
  rfl

/-- **Nothing passes from one call of a pipeline to the next but the front-end's own state**, whatever the front-end is and
whatever is done with the pipeline between its calls.  In each call, also one that fails, `translate` is called once, and
receives what `normalize` makes of that call's source in the state of that moment, with that call's target.  It is all
the same whether a call runs or compiles, but for the boxing of its result, and whether the front-end is put into a new
pipeline.  And a front-end that remembers what `translate` sees remembers just that. -/
theorem calls_are_independent [ToIr α] (p : Pipeline σ α) (steps : List (Step σ)) :
    ((p.observed []).transcript (steps.map Step.observed) = p.transcript steps ∧
      ((p.observed []).after (steps.map Step.observed)).state = ((p.after steps).state, p.received steps)) ∧
    (p.received steps).length = steps.countP Step.isCall ∧
    (∀ before step after source target, steps = before ++ step :: after → step.call? = some (source, target) →
      let normalized := (p.frontend.normalize (p.after before).state ⟨source, target⟩).value
      (p.received steps)[before.countP Step.isCall]? = some (normalized.2, ⟨normalized.1, target⟩)) ∧
    (∀ others, Step.Replaced steps others →
      List.Forall₂ SameButBoxed (p.results steps) (p.results others) ∧
        (p.transcript steps).flatMap Logged.log = (p.transcript others).flatMap Logged.log ∧
          (p.after steps).state = (p.after others).state) ∧
    ∀ (β : Type) (list : σ → List β) (entry : CompilationUnit → β), p.frontend.Remembers list entry →
      (∀ change, .edit change ∈ steps → ∀ state, list (change state) = list state) →
      list (p.after steps).state = list p.state ++ (p.received steps).map fun r => entry r.2 := by
  refine ⟨⟨transcript_observed steps p [], ?_⟩, length_received steps p, ?_, fun others h => ?_,
    fun β list entry => remembered_after⟩
  · rw [after_observed]
    rfl
  · rintro before step after source target rfl hcall
    rw [getElem?_received p hcall, staged, frontend_after]
  · obtain ⟨hresults, hlog, hafter⟩ := results_replaced h p
    exact ⟨hresults, hlog, congrArg Pipeline.state hafter⟩

example : ((⟨Frontend.scripted, { script := { edits := [.wrap "<".toList ">".toList], action := .nonempty } }⟩ :
      Pipeline Scripted TextIr).after [.run "a".toList ⟨"x".toList, none⟩, .rewrap,
        .edit (·.rescript { action := .missing }), .compile "b".toList ⟨"y".toList, some 2⟩]).state.seen =
    [⟨"<a>".toList, "x".toList, none⟩, ⟨"b".toList, "y".toList, some 2⟩] := by rfl

end Pipeline
end QuantumKernel
