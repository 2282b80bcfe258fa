import QuantumKernel.Registry.Builtin
import QuantumKernel.Registry.Display
/-! # Session — what is done with one registry over time

A session has a registry, named slots that hold resolved compilers, and the number of times that the factories of its
own `register` steps have run.  Each step has an answer and may leave records.
-/
namespace QuantumKernel
namespace Registry

/-- One step on a registry and the compilers resolved from it. -/
inductive Step
  /-- A factory that makes this compiler, its runs counted. -/
  | register (name : Text) (compiler : Compiler)
  /-- A factory that makes this compiler, its runs not counted. -/
  | registerDefault (name : Text) (compiler : Compiler)
  | resolve (name slot : Text)
  | compile (slot source : Text) (target : Target)
  | frontendName (slot : Text)
  | contains (name : Text)
  | names
  | size
  | built
  | shown

/-- What a step answers. -/
inductive Answer
  /-- The number of names after a registration. -/
  | registered (size : Nat)
  /-- The name of the front-end that was resolved, or is in a slot. -/
  | frontend (name : Text)
  | failed (error : CompileError)
  | compiled (result : Except CompileError Ir)
  | emptySlot
  | contains (present : Bool)
  | names (names : List Text)
  | size (size : Nat) (isEmpty : Bool)
  | built (runs : Nat)
  | shown (line pretty : Text)

/-- A factory that makes this compiler and counts its runs. -/
def counted (c : Compiler) : Factory Nat := fun runs => (c, runs + 1)

/-- The registry, the compiler in each slot, and how often counted factories have run. -/
structure Session where
  registry : Registry Nat := empty
  slots : Text → Option Compiler := fun _ => none
  runs : Nat := 0

namespace Session

/-- The session with a compiler in a slot. -/
def put (s : Session) (slot : Text) (c : Compiler) : Session :=
  { s with slots := fun other => if other = slot then some c else s.slots other }

/-- A registration: the number of names after it. -/
def enter (s : Session) (name : Text) (factory : Factory Nat) : Logged (Answer × Session) :=
  let entered := s.registry.register name factory
  ⟨(.registered entered.value.size, { s with registry := entered.value }), entered.log⟩

/-- A resolution: the compiler goes into the slot, unless there is none of that name. -/
def resolve (s : Session) (name slot : Text) : Logged (Answer × Session) :=
  let resolved := s.registry.resolve name s.runs
  match resolved.value.1 with
  | .error e => ⟨(.failed e, s), resolved.log⟩
  | .ok c => ⟨(.frontend c.name, { s.put slot c with runs := resolved.value.2 }), resolved.log⟩

/-- A compilation by the compiler in a slot, which stays there in its new state. -/
def compile (s : Session) (slot source : Text) (target : Target) : Logged (Answer × Session) :=
  match s.slots slot with
  | none => ⟨(.emptySlot, s), []⟩
  | some c =>
    let compiled := c.compile source target
    ⟨(.compiled compiled.value.1, s.put slot compiled.value.2), compiled.log⟩

/-- The answer of a query, which changes nothing. -/
def nameIn (s : Session) (slot : Text) : Answer :=
  match s.slots slot with
  | none => .emptySlot
  | some c => .frontend c.name

/-- One step: its answer, and the session after it. -/
def perform (s : Session) : Step → Logged (Answer × Session)
  | .register name compiler => s.enter name (counted compiler)
  | .registerDefault name compiler => s.enter name (Factory.of compiler)
  | .resolve name slot => s.resolve name slot
  | .compile slot source target => s.compile slot source target
  | .frontendName slot => ⟨(s.nameIn slot, s), []⟩
  | .contains name => ⟨(.contains (s.registry.contains name), s), []⟩
  | .names => ⟨(.names s.registry.names, s), []⟩
  | .size => ⟨(.size s.registry.size s.registry.isEmpty, s), []⟩
  | .built => ⟨(.built s.runs, s), []⟩
  | .shown => ⟨(.shown s.registry.shown s.registry.shownPretty, s), []⟩

/-- The session after steps in order. -/
def after (s : Session) (steps : List Step) : Session := steps.foldl (fun s step => (s.perform step).value.2) s

/-- What each of the steps answers, with the records it leaves. -/
def transcript (s : Session) : List Step → List (Logged Answer)
  | [] => []
  | step :: rest =>
    let performed := s.perform step
    ⟨performed.value.1, performed.log⟩ :: transcript performed.value.2 rest

@[simp] theorem after_nil (s : Session) : s.after [] = s := rfl

@[simp] theorem after_cons (s : Session) (step : Step) (rest : List Step) :
    s.after (step :: rest) = (s.perform step).value.2.after rest := rfl

@[simp] theorem after_append (s : Session) (a b : List Step) : s.after (a ++ b) = (s.after a).after b :=
  List.foldl_append

end Session
end Registry
end QuantumKernel
