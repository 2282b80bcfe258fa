import QuantumKernel.Proofs.Isolation
import QuantumKernel.Proofs.Observation
/-! # Account — the log of a client tells what happened, call by call

Each call of a client leaves the records that `Tells` names, told from the state before it and from what comes of it.
A run's records are those of its pipeline, in a fixed order, with those of the front-end in between (`log_run`); a
front-end that leaves none, and the gates front-end, which leaves one for an accepted program, are `Known`.
-/
namespace QuantumKernel

namespace Pipeline

variable {σ α : Type}

/-- The records of a run: its start, the staged source if that is not the caller's, those of the front-end about what it
accepted, and its end. -/
def account (p : Pipeline σ α) (source : Text) (target : Target) (accepted : List LogRecord) : List LogRecord :=
  let staged := p.staged source target
  let final := (p.frontend.translate staged.1 staged.2).value.2
  [⟨.debug, origin, p.name ++ ": compiling ".toList ++ Text.decimal (Text.utf8 source).length
      ++ " bytes for target `".toList ++ target.name ++ "`".toList⟩]
    ++ (if staged.2.source = source then []
        else [⟨.trace, origin, p.frontend.name staged.1 ++ ": normalized source:\n".toList ++ staged.2.source⟩])
    ++ accepted
    ++ match p.result source target with
      | .ok _ => [⟨.trace, origin, p.frontend.name final ++ ": translation complete".toList⟩]
      | .error e => [⟨if e.isDefect then .error else .debug, origin, e.message⟩]

theorem log_logStaged (name source staged : Text) : (logStaged name source staged).log =
    if staged = source then [] else [⟨.trace, origin, name ++ ": normalized source:\n".toList ++ staged⟩] := by
  unfold logStaged
  split
  · rfl
  · rfl

theorem log_logEnd (name : Text) (result : Except CompileError α) : (logEnd name result).log =
    match result with
    | .ok _ => [⟨.trace, origin, name ++ ": translation complete".toList⟩]
    | .error e => [⟨if e.isDefect then .error else .debug, origin, e.message⟩] := by
  cases result <;> rfl

/-- **A run leaves its account**, when the front-end leaves no records but those about what it accepted. -/
theorem log_run {p : Pipeline σ α} {source : Text} {target : Target} {accepted : List LogRecord}
    (hnormalize : (p.frontend.normalize p.state ⟨source, target⟩).log = [])
    (htranslate : (p.frontend.translate (p.staged source target).1 (p.staged source target).2).log = accepted) :
    (p.run source target).log = p.account source target accepted := by
  have hresult : p.result source target =
      (p.frontend.translate (p.staged source target).1 (p.staged source target).2).value.1 := rfl
  simp only [run, account, startText, Logged.log_bind, Logged.log_record, Logged.log_pure, hnormalize, log_logStaged,
    log_logEnd, ← Text.length_utf8, hresult, List.append_nil, List.nil_append, List.append_assoc, ← htranslate]
  rfl

end Pipeline

namespace Compiler

/-- A compiler whose front-end's hooks leave no records. -/
def Quiet (c : Compiler) : Prop :=
  ∀ state unit, (c.pipeline.frontend.normalize state unit).log = [] ∧ (c.pipeline.frontend.translate state unit).log = []

/-- The compilers that are accounted for: those that are quiet, and that of gate kernels. -/
def Known (c : Compiler) : Prop := c.Quiet ∨ c = Frontend.gateList.compiler

theorem known_of_mem_builtins {entry : Text × Compiler} (h : entry ∈ Registry.builtins) : entry.2.Known := by
  simp only [Registry.builtins, List.mem_cons, List.not_mem_nil, or_false] at h
  -- only `gates`, the last, leaves a record of its own
  rcases h with rfl | rfl | rfl | rfl
  · exact Or.inl fun _ _ => ⟨rfl, rfl⟩
  · exact Or.inl fun _ _ => ⟨rfl, rfl⟩
  · exact Or.inl fun _ _ => ⟨rfl, rfl⟩
  · exact Or.inr rfl

theorem Known.run {c : Compiler} (h : c.Known) (source : Text) (target : Target) :
    Known ⟨(c.pipeline.run source target).value.2⟩ := by
  rcases h with hquiet | rfl
  · exact Or.inl hquiet
  · exact Or.inr rfl

theorem Quiet.log_run {c : Compiler} (h : c.Quiet) (source : Text) (target : Target) :
    (c.pipeline.run source target).log = c.pipeline.account source target [] :=
  Pipeline.log_run (h _ _).1 (h _ _).2

end Compiler

namespace Frontend

def GateList.accepted : Except CompileError Program → List LogRecord
  | .ok p => [⟨.debug, origin, name ++ ": ".toList ++ Text.decimal p.instructions.length
      ++ " instructions over ".toList ++ Text.decimal p.qubitsUsed.toNat ++ " qubits".toList⟩]
  | .error _ => []

theorem GateList.log_translate (unit : CompilationUnit) :
    (translate unit).log = accepted (translate unit).value := by
  unfold translate
  split
  · rfl
  · rfl

theorem log_run_gateList (source : Text) (target : Target) : (gateList.pipeline.run source target).log =
    gateList.pipeline.account source target (GateList.accepted (gateList.pipeline.result source target)) := by
  refine Pipeline.log_run rfl ?_
  exact (List.append_nil _).trans (GateList.log_translate ⟨Kernel.clean source, target⟩)

end Frontend

namespace Registry

variable {ω : Type}

/-- The compilers that a call brings in are accounted for. -/
def Call.Known : Call ω → Prop
  | register _ factory => ∀ world, (factory world).1.Known
  | registerDefault _ compiler => compiler.Known
  | build _ pipeline => pipeline.Known
  | _ => True

/-- What the records of a call tell: a registration, if its name was there already; a resolution, if its name is there;
a run or a compilation, what its pipeline accounts for. -/
inductive Tells (c : Client ω) : Call ω → List LogRecord → Prop
  | registration {call : Call ω} {name : Text} {factory : Factory ω} : call.registration? = some (name, factory) →
      Tells c call (if name ∈ c.registry.names then
        [⟨.warn, origin, "front-end `".toList ++ name ++ "` registered twice, keeping the latest".toList⟩] else [])
  | resolution (name slot : Text) :
      Tells c (.resolve name slot) (if name ∈ c.registry.names then
        [⟨.trace, origin, "resolved front-end `".toList ++ name ++ "`".toList⟩] else [])
  | building (slot : Text) (pipeline : Compiler) : Tells c (.build slot pipeline) []
  | nothing {call : Call ω} {slot source : Text} {target : Target} : call.asked? = some (slot, source, target) →
      c.slots slot = none → Tells c call []
  | quiet {call : Call ω} {slot source : Text} {target : Target} {held : Compiler} :
      call.asked? = some (slot, source, target) → c.slots slot = some held → held.Quiet →
      Tells c call (held.pipeline.account source target [])
  | gates {call : Call ω} {slot source : Text} {target : Target} : call.asked? = some (slot, source, target) →
      c.slots slot = some Frontend.gateList.compiler →
      Tells c call (Frontend.gateList.pipeline.account source target
        (Frontend.GateList.accepted (Frontend.gateList.pipeline.result source target)))

/-- A log that is what the records of each call tell, one after the other. -/
inductive Accounts : Client ω → List (Call ω) → List LogRecord → Prop
  | nil (c : Client ω) : Accounts c [] []
  | cons {c : Client ω} {call : Call ω} {rest : List (Call ω)} {records log : List LogRecord} : Tells c call records →
      Accounts (c.perform call).value rest log → Accounts c (call :: rest) (records ++ log)

/-- Whatever a client holds or can resolve is accounted for. -/
structure Client.Known (c : Client ω) : Prop where
  registry : ∀ name factory, c.registry.factory? name = some factory → ∀ world, (factory world).1.Known
  slots : ∀ slot held, c.slots slot = some held → held.Known

theorem Client.Known.put {c : Client ω} (h : c.Known) (slot : Text) {held : Compiler} (hheld : held.Known) :
    (c.put slot held).Known := by
  refine ⟨h.registry, fun other found hfound => ?_⟩
  simp only [Client.put] at hfound
  split at hfound
  · rwa [← Option.some.inj hfound]
  · exact h.slots other found hfound

theorem Client.Known.enter {c : Client ω} (h : c.Known) (name : Text) {factory : Factory ω}
    (hfactory : ∀ world, (factory world).1.Known) : (c.enter name factory).value.Known := by
  refine ⟨fun other found hfound => ?_, h.slots⟩
  rw [Client.value_enter, factory?_register] at hfound
  split at hfound
  · rwa [← Option.some.inj hfound]
  · exact h.registry other found hfound

theorem Client.Known.perform_asked {c : Client ω} (h : c.Known) {call : Call ω} {slot source : Text} {target : Target}
    (hcall : call.asked? = some (slot, source, target)) : (c.perform call).value.Known := by
  cases hslot : c.slots slot with
  | none =>
    rw [c.perform_of_asked_none hcall hslot]
    exact h
  | some held =>
    rw [c.perform_of_asked_some hcall hslot]
    exact h.put slot ((h.slots slot held hslot).run source target)

/-- **A call that brings in nothing unknown leaves a client without anything unknown.** -/
theorem Client.Known.perform {c : Client ω} (h : c.Known) {call : Call ω} (hcall : call.Known) :
    (c.perform call).value.Known := by
  cases call with
  | register name factory => exact h.enter name hcall
  | registerDefault name compiler => exact h.enter name fun _ => hcall
  | resolve name slot =>
    cases hname : c.registry.factory? name with
    | none =>
      rw [c.perform_resolve_of_none hname]
      exact h
    | some factory =>
      rw [c.perform_resolve_of_some hname]
      have hput := h.put slot (h.registry name factory hname c.world)
      exact ⟨hput.registry, hput.slots⟩
  | build slot pipeline => exact h.put slot hcall
  | run | compile => exact h.perform_asked rfl

/-! ## What a call leaves -/

theorem log_enter_eq (c : Client ω) (name : Text) (factory : Factory ω) : (c.enter name factory).log =
    if name ∈ c.registry.names then
      [⟨.warn, origin, "front-end `".toList ++ name ++ "` registered twice, keeping the latest".toList⟩] else [] := by
  rw [Client.log_enter, log_register]
  exact if_congr mem_names_iff.symm rfl rfl

theorem log_perform_resolve (c : Client ω) (name slot : Text) :
    (c.perform (.resolve name slot)).log = if name ∈ c.registry.names then
      [⟨.trace, origin, "resolved front-end `".toList ++ name ++ "`".toList⟩] else [] := by
  simp only [mem_names_iff]
  cases hname : c.registry.factory? name with
  | none =>
    rw [c.perform_resolve_of_none hname]
    rfl
  | some factory =>
    rw [c.perform_resolve_of_some hname]
    rfl

/-- **What tells of a call is what it leaves.** -/
theorem Tells.log_perform {c : Client ω} {call : Call ω} {records : List LogRecord} (h : Tells c call records) :
    (c.perform call).log = records := by
  cases h with
  | registration hcall => rw [c.perform_of_registration hcall, log_enter_eq]
  | resolution name slot => exact log_perform_resolve c name slot
  | building slot pipeline => rfl
  | nothing hcall hslot =>
    rw [c.perform_of_asked_none hcall hslot]
    rfl
  | quiet hcall hslot hquiet =>
    rw [c.perform_of_asked_some hcall hslot]
    exact hquiet.log_run _ _
  | gates hcall hslot =>
    rw [c.perform_of_asked_some hcall hslot]
    exact Frontend.log_run_gateList _ _

theorem Client.Known.exists_tells_asked {c : Client ω} (h : c.Known) {call : Call ω} {slot source : Text}
    {target : Target} (hcall : call.asked? = some (slot, source, target)) : ∃ records, Tells c call records := by
  cases hslot : c.slots slot with
  | none => exact ⟨_, .nothing hcall hslot⟩
  | some held =>
    rcases h.slots slot held hslot with hquiet | rfl
    · exact ⟨_, .quiet hcall hslot hquiet⟩
    · exact ⟨_, .gates hcall hslot⟩

theorem Client.Known.exists_tells {c : Client ω} (h : c.Known) (call : Call ω) : ∃ records, Tells c call records := by
  cases call with
  | register name factory => exact ⟨_, .registration rfl⟩
  | registerDefault name compiler => exact ⟨_, .registration rfl⟩
  | resolve name slot => exact ⟨_, .resolution name slot⟩
  | build slot pipeline => exact ⟨_, .building slot pipeline⟩
  | run slot source target => exact h.exists_tells_asked rfl
  | compile slot source target => exact h.exists_tells_asked rfl

theorem Accounts.log_eq {c : Client ω} {calls : List (Call ω)} {log : List LogRecord} (h : Accounts c calls log) :
    log = c.log calls := by
  induction h with
  | nil c => rfl
  | cons htells _ ih => rw [Client.log_cons, htells.log_perform, ih]

/-- **The log of calls tells of each of them**, and no other does. -/
theorem Client.Known.accounts_iff {c : Client ω} (h : c.Known) {calls : List (Call ω)}
    (hcalls : ∀ call ∈ calls, call.Known) (log : List LogRecord) : Accounts c calls log ↔ log = c.log calls := by
  refine ⟨Accounts.log_eq, ?_⟩
  rintro rfl
  -- on the calls, for any client of known compilers: each call leaves such a one
  induction calls generalizing c with
  | nil => exact .nil c
  | cons call rest ih =>
    obtain ⟨records, htells⟩ := h.exists_tells call
    have hnext := h.perform (hcalls call (List.mem_cons_self ..))
    rw [Client.log_cons, htells.log_perform]
    exact .cons htells (ih hnext fun other hother => hcalls other (List.mem_cons_of_mem _ hother))

theorem Start.known_client (start : Start) (world : ω) : (start.client world).Known := by
  refine ⟨fun name factory hname w => ?_, fun slot held hheld => by cases hheld⟩
  obtain ⟨compiler, hcompiler, rfl⟩ := Start.exists_compiler_of_factory? hname
  have hmem := mem_of_latest hcompiler
  cases start with
  | empty => cases hmem
  | builtins => exact Compiler.known_of_mem_builtins hmem

/-- The same for a session on one registry: its transcript's records are those of its calls. -/
theorem Start.accounts_session (start : Start) {steps : List Step}
    (h : ∀ call ∈ steps.filterMap Step.call?, call.Known) : Accounts (start.client 0) (steps.filterMap Step.call?)
      ((start.session.transcript steps).flatMap Logged.log) :=
  ((start.known_client 0).accounts_iff h _).2 (start.session.log_transcript steps)

/-- **The log is an account of what happened, and of nothing else**: the records of each call, in the order of the calls,
for a client of a registry that starts empty or with the front-ends that come with the program, when any others that it
brings in leave no records themselves. -/
theorem log_tells_every_call (start : Start) (world : ω) (calls : List (Call ω)) (h : ∀ call ∈ calls, call.Known)
    (log : List LogRecord) : Accounts (start.client world) calls log ↔ log = (start.client world).log calls :=
  (start.known_client world).accounts_iff h log

theorem log_tells_seven_calls :
    let t : Target := ⟨"t".toList, none⟩
    let remembering : Compiler := ⟨(⟨Frontend.scripted, {}⟩ : Pipeline Scripted TextIr)⟩
    let unfinished : Compiler := (Frontend.unfinished "x".toList).compiler
    let calls : List (Call Nat) := [.registerDefault "toy".toList remembering, .resolve "λ".toList "a".toList,
      .resolve "gates".toList "g".toList, .run "g".toList "H 0 // é".toList t,
      .compile "g".toList "X 5".toList (t.withQubits 2), .build "b".toList unfinished, .run "b".toList [] t]
    let log : List LogRecord := [
      ⟨.warn, origin, "front-end `".toList ++ "toy".toList ++ "` registered twice, keeping the latest".toList⟩,
      ⟨.trace, origin, "resolved front-end `gates`".toList⟩,
      ⟨.debug, Pipeline.origin, "gates: compiling 9 bytes for target `t`".toList⟩,
      ⟨.trace, Pipeline.origin, "gates: normalized source:\nH 0".toList⟩,
      ⟨.debug, Frontend.GateList.origin, "gates: 1 instructions over 1 qubits".toList⟩,
      ⟨.trace, Pipeline.origin, "gates: translation complete".toList⟩,
      ⟨.debug, Pipeline.origin, "gates: compiling 3 bytes for target `t`".toList⟩,
      ⟨.debug, Pipeline.origin,
        ((Rejection.tooManyQubits 6 2).toError Frontend.GateList.name (t.withQubits 2)).message⟩,
      ⟨.debug, Pipeline.origin, "x: compiling 0 bytes for target `t`".toList⟩,
      ⟨.error, Pipeline.origin, (CompileError.missingTranslate "x".toList).message⟩]
    (∀ call ∈ calls, call.Known) ∧ Accounts (Start.builtins.client 0) calls log := by
  intro t remembering unfinished calls log
  have hremembering : remembering.Known := Or.inl fun _ _ => ⟨rfl, rfl⟩
  have hunfinished : unfinished.Known := Or.inl fun _ _ => ⟨rfl, rfl⟩
  have hcalls : ∀ call ∈ calls, call.Known := by
    simp only [calls, List.forall_mem_cons]
    exact ⟨hremembering, trivial, trivial, trivial, trivial, hunfinished, trivial,
      fun _ hnone => absurd hnone List.not_mem_nil⟩
  have hlog : log = (Start.builtins.client 0).log calls := by decide +kernel
  exact ⟨hcalls, (log_tells_every_call .builtins 0 calls hcalls log).2 hlog⟩

end Registry
end QuantumKernel
