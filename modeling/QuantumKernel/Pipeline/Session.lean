import QuantumKernel.Pipeline.Basic
/-! # Session — what is done with one pipeline over time

A session is a list of steps on one pipeline: runs and compilations, edits of the front-end's state, and taking the
front-end out to put it into a new pipeline.
-/
namespace QuantumKernel
namespace Pipeline

/-- One step on a pipeline. -/
inductive Step (σ : Type)
  | run (source : Text) (target : Target)
  | compile (source : Text) (target : Target)
  | edit (change : σ → σ)
  | rewrap

/-- What a step answers: a run its own result, a compilation a representation of any kind, the others nothing. -/
inductive Answer (α : Type)
  | ran (result : Except CompileError α)
  | compiled (result : Except CompileError Ir)
  | done

variable {σ α : Type}

def edit (p : Pipeline σ α) (change : σ → σ) : Pipeline σ α := { p with state := change p.state }

/-- The front-end taken out and put into a new pipeline. -/
def rewrap (p : Pipeline σ α) : Pipeline σ α := ⟨p.frontend, p.state⟩

/-- One step: its answer, and the pipeline after it. -/
def perform [ToIr α] (p : Pipeline σ α) : Step σ → Logged (Answer α × Pipeline σ α)
  | .run source target => do
    let (result, after) ← p.run source target
    return (.ran result, after)
  | .compile source target => do
    let (result, after) ← p.compile source target
    return (.compiled result, after)
  | .edit change => return (.done, p.edit change)
  | .rewrap => return (.done, p.rewrap)

/-- The pipeline after steps in order. -/
def after [ToIr α] (p : Pipeline σ α) (steps : List (Step σ)) : Pipeline σ α :=
  steps.foldl (fun p step => (p.perform step).value.2) p

/-- What each of the steps answers, with the records it leaves. -/
def transcript [ToIr α] (p : Pipeline σ α) : List (Step σ) → List (Logged (Answer α))
  | [] => []
  | step :: rest =>
    let performed := p.perform step
    ⟨performed.value.1, performed.log⟩ :: transcript performed.value.2 rest

@[simp] theorem after_cons [ToIr α] (p : Pipeline σ α) (step : Step σ) (rest : List (Step σ)) :
    p.after (step :: rest) = (p.perform step).value.2.after rest := rfl

end Pipeline
end QuantumKernel
