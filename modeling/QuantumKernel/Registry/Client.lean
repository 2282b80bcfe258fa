import QuantumKernel.Registry.Session
/-! # Client — a program that uses a registry and pipelines

A client has a registry, the world that its factories act on, and slots for pipelines: those that it resolved, their
front-ends hidden, and those that it built itself.  It calls them in any order, and each call may leave records.  A
session is a client whose factories count their runs (`Session.client_after`, `Session.log_transcript`).
-/
namespace QuantumKernel
namespace Registry

inductive Call (ω : Type)
  | register (name : Text) (factory : Factory ω)
  /-- A factory that makes this compiler. -/
  | registerDefault (name : Text) (compiler : Compiler)
  | resolve (name slot : Text)
  /-- A pipeline of the client's own goes into a slot. -/
  | build (slot : Text) (pipeline : Compiler)
  | run (slot source : Text) (target : Target)
  | compile (slot source : Text) (target : Target)

/-- A registry, the world of its factories, and the pipeline in each slot. -/
structure Client (ω : Type) where
  registry : Registry ω
  world : ω
  slots : Text → Option Compiler := fun _ => none

namespace Client

variable {ω : Type}

def put (c : Client ω) (slot : Text) (pipeline : Compiler) : Client ω :=
  { c with slots := fun other => if other = slot then some pipeline else c.slots other }

def enter (c : Client ω) (name : Text) (factory : Factory ω) : Logged (Client ω) := do
  let registry ← c.registry.register name factory
  return { c with registry }

@[simp] theorem value_enter (c : Client ω) (name : Text) (factory : Factory ω) :
    (c.enter name factory).value = { c with registry := (c.registry.register name factory).value } := rfl

@[simp] theorem log_enter (c : Client ω) (name : Text) (factory : Factory ω) :
    (c.enter name factory).log = (c.registry.register name factory).log := List.append_nil _

/-- A resolution: the compiler goes into the slot, unless there is none of that name. -/
def resolve (c : Client ω) (name slot : Text) : Logged (Client ω) := do
  let (result, world) ← c.registry.resolve name c.world
  match result with
  | .error _ => return { c with world }
  | .ok compiler => return { c.put slot compiler with world }

/-- A run of the pipeline in a slot, which stays there in its new state. -/
def run (c : Client ω) (slot source : Text) (target : Target) : Logged (Client ω) :=
  match c.slots slot with
  | none => pure c
  | some held =>
    let ran := held.pipeline.run source target
    ⟨c.put slot ⟨ran.value.2⟩, ran.log⟩

def compile (c : Client ω) (slot source : Text) (target : Target) : Logged (Client ω) :=
  match c.slots slot with
  | none => pure c
  | some held =>
    let compiled := held.compile source target
    ⟨c.put slot compiled.value.2, compiled.log⟩

def perform (c : Client ω) : Call ω → Logged (Client ω)
  | .register name factory => c.enter name factory
  | .registerDefault name compiler => c.enter name (Factory.of compiler)
  | .resolve name slot => c.resolve name slot
  | .build slot pipeline => pure (c.put slot pipeline)
  | .run slot source target => c.run slot source target
  | .compile slot source target => c.compile slot source target

end Client

/-! ## What a call does -/

namespace Call

variable {ω : Type}

def registration? : Call ω → Option (Text × Factory ω)
  | register name factory => some (name, factory)
  | registerDefault name compiler => some (name, Factory.of compiler)
  | resolve .. | build .. | run .. | compile .. => none

/-- The slot that a call asks to run or compile, with the source and the target. -/
def asked? : Call ω → Option (Text × Text × Target)
  | run slot source target => some (slot, source, target)
  | compile slot source target => some (slot, source, target)
  | _ => none

end Call

namespace Client

variable {ω : Type} (c : Client ω) {call : Call ω} {name slot source : Text} {target : Target} {factory : Factory ω}

theorem perform_of_registration (hcall : call.registration? = some (name, factory)) :
    c.perform call = c.enter name factory := by
  cases call with
  | register => cases hcall; rfl
  | registerDefault => cases hcall; rfl
  | _ => cases hcall

theorem perform_resolve_of_some (h : c.registry.factory? name = some factory) (slot : Text) :
    c.perform (.resolve name slot) =
      ⟨{ c.put slot (factory c.world).1 with world := (factory c.world).2 }, [⟨.trace, origin, resolvedText name⟩]⟩ := by
  simp only [perform, resolve, resolve_of_some h]
  rfl

theorem perform_resolve_of_none (h : c.registry.factory? name = none) (slot : Text) :
    c.perform (.resolve name slot) = pure c := by
  simp only [perform, resolve, resolve_of_none h]
  rfl

/-- To run and to compile does the same to a client, and leaves the same records. -/
theorem perform_of_asked_some (hcall : call.asked? = some (slot, source, target)) {held : Compiler}
    (hslot : c.slots slot = some held) : c.perform call =
      ⟨c.put slot ⟨(held.pipeline.run source target).value.2⟩, (held.pipeline.run source target).log⟩ := by
  cases call with
  | run =>
    cases hcall
    simp only [perform, run, hslot]
  | compile =>
    cases hcall
    simp only [perform, compile, hslot]
    exact Logged.ext rfl (List.append_nil _)
  | _ => cases hcall

theorem perform_of_asked_none (hcall : call.asked? = some (slot, source, target)) (hslot : c.slots slot = none) :
    c.perform call = pure c := by
  cases call with
  | run =>
    cases hcall
    simp only [perform, run, hslot]
  | compile =>
    cases hcall
    simp only [perform, compile, hslot]
  | _ => cases hcall

end Client

/-! ## Calls in order -/

namespace Client

variable {ω : Type}

/-- The client after calls in order, with all the records that they leave. -/
def use (c : Client ω) (calls : List (Call ω)) : Logged (Client ω) := calls.foldlM perform c

def after (c : Client ω) (calls : List (Call ω)) : Client ω := (c.use calls).value

/-- The records that calls leave, in order. -/
def log (c : Client ω) (calls : List (Call ω)) : List LogRecord := (c.use calls).log

@[simp] theorem after_nil (c : Client ω) : c.after [] = c := rfl

@[simp] theorem after_cons (c : Client ω) (call : Call ω) (rest : List (Call ω)) :
    c.after (call :: rest) = (c.perform call).value.after rest := rfl

@[simp] theorem after_append (c : Client ω) (a b : List (Call ω)) : c.after (a ++ b) = (c.after a).after b := by
  rw [after, use, List.foldlM_append]
  rfl

@[simp] theorem after_singleton (c : Client ω) (call : Call ω) : c.after [call] = (c.perform call).value := rfl

@[simp] theorem log_singleton (c : Client ω) (call : Call ω) : c.log [call] = (c.perform call).log := List.append_nil _

theorem log_append (c : Client ω) (a b : List (Call ω)) : c.log (a ++ b) = c.log a ++ (c.after a).log b := by
  rw [log, use, List.foldlM_append]
  rfl

@[simp] theorem log_nil (c : Client ω) : c.log [] = [] := rfl

@[simp] theorem log_cons (c : Client ω) (call : Call ω) (rest : List (Call ω)) :
    c.log (call :: rest) = (c.perform call).log ++ (c.perform call).value.log rest := rfl

end Client

/-- The call that a step of a session makes; a query makes none. -/
def Step.call? : Step → Option (Call Nat)
  | register name compiler => some (.register name (counted compiler))
  | registerDefault name compiler => some (.registerDefault name compiler)
  | resolve name slot => some (.resolve name slot)
  | compile slot source target => some (.compile slot source target)
  | frontendName _ | contains _ | names | size | built | shown => none

namespace Session

/-- A session as a client, its world the count of factory runs. -/
def client (s : Session) : Client Nat := ⟨s.registry, s.runs, s.slots⟩

/-- **A step does to the session what its call does to the client**, and leaves the same records. -/
theorem client_perform (s : Session) (step : Step) :
    (s.perform step).value.2.client = s.client.after step.call?.toList ∧
      (s.perform step).log = s.client.log step.call?.toList := by
  cases step with
  | register name compiler =>
    rw [Step.call?, Option.toList_some, Client.after_singleton, Client.log_singleton]
    exact ⟨rfl, (Client.log_enter s.client name (counted compiler)).symm⟩
  | registerDefault name compiler =>
    rw [Step.call?, Option.toList_some, Client.after_singleton, Client.log_singleton]
    exact ⟨rfl, (Client.log_enter s.client name (Factory.of compiler)).symm⟩
  | resolve name slot =>
    rw [Step.call?, Option.toList_some, Client.after_singleton, Client.log_singleton]
    simp only [perform, Client.perform, resolve, Client.resolve, Registry.resolve, client]
    cases s.registry.factory? name with
    | none => exact ⟨rfl, rfl⟩
    | some factory => exact ⟨rfl, rfl⟩
  | compile slot source target =>
    rw [Step.call?, Option.toList_some, Client.after_singleton, Client.log_singleton]
    simp only [perform, Client.perform, compile, Client.compile, client]
    cases s.slots slot with
    | none => exact ⟨rfl, rfl⟩
    | some compiler => exact ⟨rfl, rfl⟩
  | frontendName _ | contains _ | names | size | built | shown => exact ⟨rfl, rfl⟩

/-- **A session is a client.** -/
theorem client_after (s : Session) : ∀ steps : List Step,
    (s.after steps).client = s.client.after (steps.filterMap Step.call?)
  | [] => rfl
  | step :: rest => by
    rw [after_cons, client_after _ rest, (client_perform s step).1, List.filterMap_cons, ← Client.after_append]
    cases step.call? with
    | none => rfl
    | some call => rfl

theorem log_transcript (s : Session) : ∀ steps : List Step,
    (s.transcript steps).flatMap Logged.log = s.client.log (steps.filterMap Step.call?)
  | [] => rfl
  | step :: rest => by
    rw [transcript, List.flatMap_cons, log_transcript _ rest, (client_perform s step).1, (client_perform s step).2,
      ← Client.log_append, List.filterMap_cons]
    cases step.call? with
    | none => rfl
    | some call => rfl

end Session
end Registry
end QuantumKernel
