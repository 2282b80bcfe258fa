import QuantumKernel.Proofs.Latest
/-! # Isolation — a compiler's answers depend on its registration and on its own calls

What stands in a slot is the compiler that the registration made, after the compilations asked of it since
(`Start.slots_after_resolve`).  Nothing else that happens in a session reaches it: not the other compilers, nor what
is registered later, also under its own name.
-/
namespace QuantumKernel

namespace Compiler

def after (c : Compiler) (calls : List (Text × Target)) : Compiler :=
  calls.foldl (fun c call => (c.compile call.1 call.2).value.2) c

/-- A compiler whose front-end has no state. -/
inductive Stateless : Compiler → Prop
  | of {α : Type} [ToIr α] (frontend : Frontend Unit α) : Stateless frontend.compiler

theorem Stateless.compile {c : Compiler} (h : c.Stateless) (source : Text) (target : Target) :
    (c.compile source target).value.2 = c := by
  cases h
  rfl

/-- **A compiler without a state stays as it is.** -/
theorem Stateless.after {c : Compiler} (h : c.Stateless) : ∀ calls : List (Text × Target), c.after calls = c
  | [] => rfl
  | call :: rest => by
    have hstep : c.after (call :: rest) = (c.compile call.1 call.2).value.2.after rest := rfl
    rw [hstep, h.compile, h.after rest]

end Compiler

namespace Registry

theorem stateless_of_mem_builtins {entry : Text × Compiler} (h : entry ∈ builtins) : entry.2.Stateless := by
  simp only [builtins, List.mem_cons, List.not_mem_nil, or_false] at h
  rcases h with rfl | rfl | rfl | rfl
  · exact .of Frontend.uppercase
  · exact .of Frontend.bracketed
  · exact .of (Frontend.unfinished _)
  · exact .of Frontend.gateList

namespace Step

/-- The name that a step registers, and the compiler that its factory makes. -/
def registration? : Step → Option (Text × Compiler)
  | register name compiler => some (name, compiler)
  | registerDefault name compiler => some (name, compiler)
  | _ => none

def registers (step : Step) : Bool := step.registration?.isSome

/-- Whether a step asks the compiler in a slot: for a compilation, or for its name. -/
def asks (slot : Text) : Step → Bool
  | compile other _ _ => other = slot
  | frontendName other => other = slot
  | _ => false

/-- What a step has the compiler in a slot compile. -/
def compiles? (slot : Text) : Step → Option (Text × Target)
  | compile other source target => if other = slot then some (source, target) else none
  | _ => none

end Step

namespace Session

def answer (s : Session) (step : Step) : Logged Answer := ⟨(s.perform step).value.1, (s.perform step).log⟩

/-- No step puts another compiler into the slot: what one would resolve there is not registered at the time. -/
def Keeps (s : Session) (slot : Text) (steps : List Step) : Prop :=
  ∀ before name after, steps = before ++ .resolve name slot :: after →
    (s.after before).registry.contains name = false

theorem Keeps.head {s : Session} {slot name : Text} {rest : List Step} (h : s.Keeps slot (.resolve name slot :: rest)) :
    s.registry.contains name = false := h [] name rest rfl

theorem Keeps.tail {s : Session} {slot : Text} {step : Step} {rest : List Step} (h : s.Keeps slot (step :: rest)) :
    (s.perform step).value.2.Keeps slot rest := by
  intro before name after hrest
  exact h (step :: before) name after (by rw [hrest, List.cons_append])

theorem keeps_of_not_resolves {slot : Text} {steps : List Step} (h : ∀ name, .resolve name slot ∉ steps) (s : Session) :
    s.Keeps slot steps := by
  rintro before name after rfl
  exact absurd (List.mem_append_right _ (List.mem_cons_self ..)) (h name)

@[simp] theorem slots_put_self (s : Session) (slot : Text) (c : Compiler) : (s.put slot c).slots slot = some c :=
  if_pos rfl

theorem slots_put_of_ne (s : Session) {slot other : Text} (h : slot ≠ other) (c : Compiler) :
    (s.put other c).slots slot = s.slots slot := if_neg h

/-! ## What stands in a slot -/

theorem slots_resolve (s : Session) (name slot other : Text) (h : slot = other → s.registry.contains name = false) :
    (s.perform (.resolve name other)).value.2.slots slot = s.slots slot := by
  simp only [perform, resolve, Registry.resolve]
  cases hname : s.registry.factory? name with
  | none => rfl
  | some factory =>
    refine slots_put_of_ne s (fun heq => ?_) _
    have habsent := h heq
    rw [contains, hname] at habsent
    cases habsent

theorem slots_compile {s : Session} {slot : Text} {c : Compiler} (h : s.slots slot = some c) (source : Text)
    (target : Target) : s.perform (.compile slot source target) =
      ⟨(.compiled (c.compile source target).value.1, s.put slot (c.compile source target).value.2),
        (c.compile source target).log⟩ := by
  simp only [perform, compile, h]

/-- **One step leaves a slot's compiler as it is, or has it compile.** -/
theorem slots_perform {s : Session} {slot : Text} {c : Compiler} (h : s.slots slot = some c) {step : Step}
    {rest : List Step} (hkeeps : s.Keeps slot (step :: rest)) :
    (s.perform step).value.2.slots slot = some (c.after (step.compiles? slot).toList) := by
  cases step with
  | resolve name other =>
    -- into this slot only a name can be resolved that is not there, which changes nothing
    rw [slots_resolve s name slot other fun heq => by subst heq; exact hkeeps.head, h]
    rfl
  | compile other source target =>
    by_cases heq : other = slot
    · subst heq
      rw [slots_compile h, slots_put_self, Step.compiles?, if_pos rfl]
      rfl
    · rw [Step.compiles?, if_neg heq]
      simp only [perform, compile]
      cases s.slots other with
      | none => exact h
      | some held => exact (slots_put_of_ne s (Ne.symm heq) _).trans h
  | register | registerDefault | frontendName | contains | names | size | built | shown => exact h

/-- **A slot keeps its compiler, after the compilations asked of it.** -/
theorem slots_after {slot : Text} : ∀ {steps : List Step} {s : Session} {c : Compiler}, s.slots slot = some c →
    s.Keeps slot steps → (s.after steps).slots slot = some (c.after (steps.filterMap (Step.compiles? slot)))
  | [], _, _, h, _ => h
  | step :: rest, s, c, h, hkeeps => by
    rw [after_cons, slots_after (slots_perform h hkeeps) hkeeps.tail, List.filterMap_cons]
    cases step.compiles? slot with
    | none => rfl
    | some call => rfl

theorem answer_congr {s t : Session} {slot : Text} (h : s.slots slot = t.slots slot) {step : Step}
    (hstep : step.asks slot = true) : s.answer step = t.answer step := by
  cases step with
  | compile other source target =>
    obtain rfl : other = slot := of_decide_eq_true hstep
    simp only [answer, perform, compile, h]
    cases t.slots other with
    | none => rfl
    | some c => rfl
  | frontendName other =>
    obtain rfl : other = slot := of_decide_eq_true hstep
    simp only [answer, perform, nameIn, h]
  | _ => cases hstep

end Session

/-! ## What a resolution puts into a slot -/

namespace Start

def session (start : Start) : Session := { registry := start.registry }

/-- **What a name resolves to in a session is what its latest registration makes.** -/
theorem factory?_session (start : Start) (steps : List Step) (name : Text) (runs : Nat) :
    ((start.session.after steps).registry.factory? name).map (fun factory => (factory runs).1) =
      latest (start.registrations ++ steps.filterMap Step.registration?) name := by
  have hclient : (start.session.after steps).registry =
      ((start.client 0).after (steps.filterMap Step.call?)).registry :=
    congrArg Client.registry (start.session.client_after steps)
  rw [hclient, factory?_after, ← latest_map, List.map_append, List.filterMap_filterMap, List.map_filterMap, history,
    List.map_map]
  congr 2
  · exact List.map_id' _
  · refine congrArg (fun f => List.filterMap f steps) (funext fun step => ?_)
    cases step <;> rfl

theorem slots_resolve (start : Start) {before : List Step} {name : Text} {c : Compiler}
    (h : latest (start.registrations ++ before.filterMap Step.registration?) name = some c) (slot : Text) :
    (start.session.after (before ++ [.resolve name slot])).slots slot = some c := by
  rw [Session.after_append, Session.after_cons, Session.after_nil]
  generalize hs : start.session.after before = s
  have hmade := start.factory?_session before name s.runs
  rw [h, hs] at hmade
  obtain ⟨factory, hfactory, hc⟩ := Option.map_eq_some_iff.1 hmade
  simp only [Session.perform, Session.resolve, resolve_of_some hfactory, hc]
  exact s.slots_put_self slot c

/-- **A slot holds the compiler of the registration resolved, after the compilations asked of it since.** -/
theorem slots_after_resolve (start : Start) {before life : List Step} {name slot : Text} {c : Compiler}
    (h : latest (start.registrations ++ before.filterMap Step.registration?) name = some c)
    (hkeeps : (start.session.after (before ++ [.resolve name slot])).Keeps slot life) :
    (start.session.after (before ++ .resolve name slot :: life)).slots slot =
      some (c.after (life.filterMap (Step.compiles? slot))) := by
  rw [List.append_cons, Session.after_append]
  exact Session.slots_after (start.slots_resolve h slot) hkeeps

end Start

/-! ## Two runs -/

theorem registration?_filter_registers (steps : List Step) :
    (steps.filter Step.registers).filterMap Step.registration? = steps.filterMap Step.registration? := by
  rw [List.filterMap_filter]
  refine congrArg (fun f => List.filterMap f steps) (funext fun step => ?_)
  cases step <;> rfl

theorem compiles?_filter_asks (slot : Text) (steps : List Step) :
    (steps.filter (Step.asks slot)).filterMap (Step.compiles? slot) = steps.filterMap (Step.compiles? slot) := by
  rw [List.filterMap_filter]
  refine congrArg (fun f => List.filterMap f steps) (funext fun step => ?_)
  cases step with
  | compile other source target =>
    by_cases h : other = slot
    · simp [Step.asks, Step.compiles?, h]
    · simp [Step.asks, Step.compiles?, h]
  | frontendName other => exact ite_self _
  | _ => rfl

theorem latest_append_of_not_mem {history others : List (Text × β)} {name : Text}
    (h : ∀ entry ∈ others, entry.1 ≠ name) : latest (history ++ others) name = latest history name := by
  have hnone : latest others name = none := by
    refine Option.not_isSome_iff_eq_none.1 fun hsome => ?_
    obtain ⟨entry, hentry, heq⟩ := List.mem_map.1 (isSome_latest_iff.1 hsome)
    exact h entry hentry heq
  rw [latest_append, hnone, Option.none_or]

namespace Start

variable (start : Start) {before between life : List Step} {name slot : Text} {c : Compiler}

theorem answer_alone (hname : latest (start.registrations ++ before.filterMap Step.registration?) name = some c)
    (hkeeps : (start.session.after (before ++ [.resolve name slot])).Keeps slot life) {step : Step}
    (hstep : step.asks slot = true) :
    (start.session.after (before ++ .resolve name slot :: life)).answer step =
      (start.session.after
        (before.filter Step.registers ++ .resolve name slot :: life.filter (Step.asks slot))).answer step := by
  have hname' : latest (start.registrations ++ (before.filter Step.registers).filterMap Step.registration?) name =
      some c := by rw [registration?_filter_registers, hname]
  -- among the steps that ask the slot there is no resolution at all
  have hkeeps' : (start.session.after (before.filter Step.registers ++ [.resolve name slot])).Keeps slot
      (life.filter (Step.asks slot)) :=
    Session.keeps_of_not_resolves (fun other hother => by cases (List.mem_filter.1 hother).2) _
  refine Session.answer_congr ?_ hstep
  rw [start.slots_after_resolve hname hkeeps, start.slots_after_resolve hname' hkeeps', compiles?_filter_asks]

theorem answer_compile (hname : latest (start.registrations ++ before.filterMap Step.registration?) name = some c)
    (hkeeps : (start.session.after (before ++ [.resolve name slot])).Keeps slot life) (source : Text) (target : Target) :
    (start.session.after (before ++ .resolve name slot :: life)).answer (.compile slot source target) =
      ⟨.compiled ((c.after (life.filterMap (Step.compiles? slot))).compile source target).value.1,
        ((c.after (life.filterMap (Step.compiles? slot))).compile source target).log⟩ := by
  rw [Session.answer, Session.slots_compile (start.slots_after_resolve hname hkeeps)]

theorem answer_of_same_registration {slot' : Text} {life' : List Step}
    (hname : latest (start.registrations ++ before.filterMap Step.registration?) name = some c)
    (hbetween : ∀ entry ∈ between.filterMap Step.registration?, entry.1 ≠ name)
    (hkeeps : (start.session.after (before ++ [.resolve name slot])).Keeps slot life)
    (hkeeps' : (start.session.after (before ++ between ++ [.resolve name slot'])).Keeps slot' life')
    (hcalls : life.filterMap (Step.compiles? slot) = life'.filterMap (Step.compiles? slot')) (source : Text)
    (target : Target) :
    (start.session.after (before ++ .resolve name slot :: life)).answer (.compile slot source target) =
      (start.session.after (before ++ between ++ .resolve name slot' :: life')).answer
        (.compile slot' source target) := by
  have hname' : latest (start.registrations ++ (before ++ between).filterMap Step.registration?) name = some c := by
    rw [List.filterMap_append, ← List.append_assoc, latest_append_of_not_mem hbetween, hname]
  rw [start.answer_compile hname hkeeps, start.answer_compile hname' hkeeps', hcalls]

theorem answer_of_stateless
    (hname : latest (start.registrations ++ before.filterMap Step.registration?) name = some c) (hc : c.Stateless)
    (hkeeps : (start.session.after (before ++ [.resolve name slot])).Keeps slot life) (source : Text) (target : Target) :
    (start.session.after (before ++ .resolve name slot :: life)).answer (.compile slot source target) =
      ⟨.compiled (c.compile source target).value.1, (c.compile source target).log⟩ := by
  rw [start.answer_compile hname hkeeps, hc.after]

end Start

/-- **A compiler is isolated** from the registry and from the other compilers, whatever a session does between its calls.
It answers as in the run in which nothing happens but the registrations before its resolution and its own calls.  Two
compilers of one registration answer alike after the same compilations.  And one without a state, as those that come
with the program, answers a compilation by its source and target alone. -/
theorem compilers_are_isolated (start : Start) :
    (∀ before name slot life c step,
      latest (start.registrations ++ before.filterMap Step.registration?) name = some c →
      (start.session.after (before ++ [.resolve name slot])).Keeps slot life → step.asks slot = true →
      (start.session.after (before ++ .resolve name slot :: life)).answer step =
        (start.session.after
          (before.filter Step.registers ++ .resolve name slot :: life.filter (Step.asks slot))).answer step) ∧
    (∀ before between name slot₁ slot₂ life₁ life₂ c,
      latest (start.registrations ++ before.filterMap Step.registration?) name = some c →
      (∀ entry ∈ between.filterMap Step.registration?, entry.1 ≠ name) →
      (start.session.after (before ++ [.resolve name slot₁])).Keeps slot₁ life₁ →
      (start.session.after (before ++ between ++ [.resolve name slot₂])).Keeps slot₂ life₂ →
      life₁.filterMap (Step.compiles? slot₁) = life₂.filterMap (Step.compiles? slot₂) → ∀ source target,
      (start.session.after (before ++ .resolve name slot₁ :: life₁)).answer (.compile slot₁ source target) =
        (start.session.after (before ++ between ++ .resolve name slot₂ :: life₂)).answer
          (.compile slot₂ source target)) ∧
    (∀ entry ∈ builtins, entry.2.Stateless) ∧
    ∀ before name slot life c, latest (start.registrations ++ before.filterMap Step.registration?) name = some c →
      c.Stateless → (start.session.after (before ++ [.resolve name slot])).Keeps slot life → ∀ source target,
      (start.session.after (before ++ .resolve name slot :: life)).answer (.compile slot source target) =
        ⟨.compiled (c.compile source target).value.1, (c.compile source target).log⟩ := by
  exact ⟨fun before name slot life c step hname hkeeps hstep => start.answer_alone hname hkeeps hstep,
    fun before between name slot₁ slot₂ life₁ life₂ c hname hbetween hkeeps₁ hkeeps₂ hcalls =>
      start.answer_of_same_registration hname hbetween hkeeps₁ hkeeps₂ hcalls,
    fun entry hentry => stateless_of_mem_builtins hentry,
    fun before name slot life c hname hstateless hkeeps => start.answer_of_stateless hname hstateless hkeeps⟩

example : ((Start.builtins.session.after [.resolve "toy".toList "a".toList,
      .registerDefault "toy".toList Frontend.bracketed.compiler, .resolve "toy".toList "b".toList,
      .compile "b".toList "x".toList ⟨[], none⟩]).answer (.compile "a".toList "x".toList ⟨[], none⟩)).value =
    .compiled (.ok (.text ⟨"X".toList⟩)) := by rfl

end Registry
end QuantumKernel
