import Mathlib.Data.List.Induction
import QuantumKernel.Proofs.Isolation
/-! # FactoryRuns — when a factory runs, and how often

A factory runs when its name is resolved, once, and at no other time (`Client.world_perform`).  So a client whose factories
count their runs has counted the resolutions of names that a factory of its own was the latest registered under:
`Tallied` is what such a client keeps up from call to call, and `tally_after` is the count.
-/
namespace QuantumKernel
namespace Registry

variable {ω : Type}

/-! ## Factories of the client's own -/

/-- The name that a call registers, and whether the factory is the client's own. -/
def Call.owned? : Call ω → Option (Text × Bool)
  | register name _ => some (name, true)
  | registerDefault name _ => some (name, false)
  | resolve .. | build .. | run .. | compile .. => none

/-- Whether the latest that calls registered under a name is a factory of the client's own. -/
def owns (calls : List (Call ω)) (name : Text) : Bool := latest (calls.filterMap Call.owned?) name = some true

/-- Whether a call resolves a name that the calls before it gave a factory of the client's own. -/
def resolvesOwn (before : List (Call ω)) : Call ω → Bool
  | .resolve name _ => owns before name
  | _ => false

/-- How many of the calls resolve a name that had, at that call, a factory of the client's own. -/
def ownResolutions (calls : List (Call ω)) : Nat :=
  (List.range calls.length).countP fun k => calls[k]?.any (resolvesOwn (calls.take k))

theorem owns_concat_of_owned {calls : List (Call ω)} {call : Call ω} {name : Text} {own : Bool}
    (h : call.owned? = some (name, own)) (other : Text) :
    owns (calls ++ [call]) other = if name = other then own else owns calls other := by
  have hcall : [call].filterMap Call.owned? = [(name, own)] := by simp [h]
  rw [owns, List.filterMap_append, hcall, latest_concat]
  by_cases hname : name = other
  · simp [hname]
  · simp [hname, owns]

theorem owns_concat_of_none {calls : List (Call ω)} {call : Call ω} (h : call.owned? = none) (name : Text) :
    owns (calls ++ [call]) name = owns calls name := by
  have hcall : [call].filterMap Call.owned? = [] := by simp [h]
  rw [owns, List.filterMap_append, hcall, List.append_nil, owns]

/-- **One more call adds one if it resolves such a name**, and nothing otherwise. -/
theorem ownResolutions_concat (calls : List (Call ω)) (call : Call ω) :
    ownResolutions (calls ++ [call]) = ownResolutions calls + (resolvesOwn calls call).toNat := by
  have hbefore : ∀ k ∈ List.range calls.length,
      ((calls ++ [call])[k]?.any (resolvesOwn ((calls ++ [call]).take k)) = true ↔
        calls[k]?.any (resolvesOwn (calls.take k)) = true) := by
    intro k hk
    have hlt : k < calls.length := List.mem_range.1 hk
    rw [List.getElem?_append_left hlt, List.take_append_of_le_length (Nat.le_of_lt hlt)]
  have hlast : (calls ++ [call])[calls.length]?.any (resolvesOwn ((calls ++ [call]).take calls.length)) =
      resolvesOwn calls call := by
    rw [List.getElem?_concat_length, List.take_left, Option.any_some]
  unfold ownResolutions
  rw [List.length_append, List.length_singleton, List.range_succ, List.countP_append, List.countP_congr hbefore,
    List.countP_singleton, hlast]
  cases resolvesOwn calls call with
  | false => rfl
  | true => rfl

/-! ## When factories run -/

theorem Client.world_perform_asked (c : Client ω) {call : Call ω} {slot source : Text} {target : Target}
    (hcall : call.asked? = some (slot, source, target)) : (c.perform call).value.world = c.world := by
  obtain ⟨slots, hslots⟩ := c.exists_slots_of_asked hcall
  rw [hslots]

/-- **Nothing but a resolution runs a factory.** -/
theorem Client.world_perform (c : Client ω) {call : Call ω} (h : ∀ name slot, call ≠ .resolve name slot) :
    (c.perform call).value.world = c.world := by
  cases call with
  | register | registerDefault | build => rfl
  | resolve name slot => exact absurd rfl (h name slot)
  | run | compile => exact c.world_perform_asked rfl

/-- A call whose factory, if it brings one of the client's own, counts its runs. -/
def Call.Counted (tally : ω → Nat) : Call ω → Prop
  | register _ factory => ∀ world, tally (factory world).2 = tally world + 1
  | _ => True

/-- A client whose world has a tally of the runs of its own factories, after calls. -/
structure Tallied (tally : ω → Nat) (first : Nat) (c : Client ω) (calls : List (Call ω)) : Prop where
  /-- A factory of the client's own adds one, any other nothing. -/
  adds : ∀ name factory, c.registry.factory? name = some factory → ∀ world,
    tally (factory world).2 = tally world + (owns calls name).toNat
  present : ∀ name, owns calls name = true → (c.registry.factory? name).isSome = true
  runs : tally c.world = first + ownResolutions calls

namespace Tallied

variable {tally : ω → Nat} {first : Nat} {c : Client ω} {calls : List (Call ω)}

theorem enter (h : Tallied tally first c calls) {call : Call ω} {name : Text} {factory : Factory ω} {own : Bool}
    (hcall : call.registration? = some (name, factory)) (howned : call.owned? = some (name, own))
    (hadds : ∀ world, tally (factory world).2 = tally world + own.toNat) (hresolves : resolvesOwn calls call = false) :
    Tallied tally first (c.perform call).value (calls ++ [call]) := by
  rw [c.perform_of_registration hcall, Client.value_enter]
  refine ⟨fun other found hfound world => ?_, fun other howns => ?_, ?_⟩
  · rw [factory?_register] at hfound
    rw [owns_concat_of_owned howned]
    by_cases hname : name = other
    · rw [if_pos hname] at hfound ⊢
      rw [← Option.some.inj hfound, hadds]
    · rw [if_neg hname] at hfound ⊢
      exact h.adds other found hfound world
  · rw [owns_concat_of_owned howned] at howns
    rw [factory?_register]
    by_cases hname : name = other
    · rw [if_pos hname]
      rfl
    · rw [if_neg hname] at howns ⊢
      exact h.present other howns
  · rw [ownResolutions_concat, hresolves]
    exact h.runs

/-- What leaves the registry alone leaves the tally right if it adds its own run to the world. -/
theorem of_registry_eq (h : Tallied tally first c calls) {call : Call ω} {d : Client ω} (hcall : call.owned? = none)
    (hregistry : d.registry = c.registry) (hworld : tally d.world = tally c.world + (resolvesOwn calls call).toNat) :
    Tallied tally first d (calls ++ [call]) := by
  refine ⟨fun name factory hname world => ?_, fun name howns => ?_, ?_⟩
  · rw [hregistry] at hname
    rw [owns_concat_of_none hcall]
    exact h.adds name factory hname world
  · rw [owns_concat_of_none hcall] at howns
    rw [hregistry]
    exact h.present name howns
  · rw [ownResolutions_concat, hworld, h.runs, Nat.add_assoc]

theorem resolve (h : Tallied tally first c calls) (name slot : Text) :
    Tallied tally first (c.perform (.resolve name slot)).value (calls ++ [.resolve name slot]) := by
  cases hname : c.registry.factory? name with
  | none =>
    have hnot : owns calls name = false := by
      refine Bool.eq_false_iff.2 fun howns => ?_
      have hsome := h.present name howns
      rw [hname] at hsome
      cases hsome
    rw [c.perform_resolve_of_none hname]
    exact h.of_registry_eq rfl rfl (by rw [resolvesOwn, hnot]; rfl)
  | some factory =>
    rw [c.perform_resolve_of_some hname]
    exact h.of_registry_eq rfl rfl (h.adds name factory hname c.world)

/-- **A call keeps the tally right.** -/
theorem perform (h : Tallied tally first c calls) {call : Call ω} (hcounted : call.Counted tally) :
    Tallied tally first (c.perform call).value (calls ++ [call]) := by
  have hother : call.owned? = none → (∀ name slot, call ≠ .resolve name slot) → call.registration? = none →
      resolvesOwn calls call = false → Tallied tally first (c.perform call).value (calls ++ [call]) := by
    intro howned hnot hregistration hresolves
    have hregistry : (c.perform call).value.registry = c.registry := by
      rw [Client.registry_perform, hregistration]
      rfl
    refine h.of_registry_eq howned hregistry ?_
    rw [c.world_perform hnot, hresolves]
    rfl
  cases call with
  | register name factory => exact h.enter rfl rfl hcounted rfl
  | registerDefault name compiler => exact h.enter rfl rfl (fun _ => rfl) rfl
  | resolve name slot => exact h.resolve name slot
  | build | run | compile => exact hother rfl (fun _ _ heq => by cases heq) rfl rfl

end Tallied

theorem Start.tallied (start : Start) (tally : ω → Nat) (world : ω) :
    Tallied tally (tally world) (start.client world) [] := by
  refine ⟨fun name factory hname w => ?_, fun name howns => (by cases howns), rfl⟩
  obtain ⟨compiler, -, rfl⟩ := Start.exists_compiler_of_factory? hname
  rfl

/-- **The runs of the client's own factories are the resolutions that asked for them.** -/
theorem tally_after (start : Start) (tally : ω → Nat) (world : ω) {calls : List (Call ω)}
    (h : ∀ call ∈ calls, call.Counted tally) :
    tally ((start.client world).after calls).world = tally world + ownResolutions calls := by
  suffices hall : Tallied tally (tally world) ((start.client world).after calls) calls from hall.runs
  -- on the calls from the end, since a resolution looks back at the registrations before it
  induction calls using List.reverseRecOn with
  | nil => exact start.tallied tally world
  | append_singleton before call ih =>
    have hbefore := ih fun other hother => h other (List.mem_append_left _ hother)
    rw [Client.after_append, Client.after_singleton]
    exact hbefore.perform (h call (List.mem_append_right _ (List.mem_singleton.2 rfl)))

/-! ## The count -/

/-- A factory that also counts its runs, beside the world it acts on. -/
def counting (factory : Factory ω) : Factory (ω × Nat) := fun state =>
  ((factory state.1).1, ((factory state.1).2, state.2 + 1))

/-- The same call, its factory counting its runs if it is the client's own. -/
def Call.counting : Call ω → Call (ω × Nat)
  | register name factory => .register name (Registry.counting factory)
  | registerDefault name compiler => .registerDefault name compiler
  | resolve name slot => .resolve name slot
  | build slot pipeline => .build slot pipeline
  | run slot source target => .run slot source target
  | compile slot source target => .compile slot source target

theorem owns_counting (calls : List (Call ω)) (name : Text) : owns (calls.map Call.counting) name = owns calls name := by
  have howned : (Call.owned? ∘ Call.counting : Call ω → Option (Text × Bool)) = Call.owned? := by
    funext call
    cases call <;> rfl
  rw [owns, List.filterMap_map, howned, owns]

/-- To count changes nothing about which resolutions are counted. -/
theorem ownResolutions_counting (calls : List (Call ω)) :
    ownResolutions (calls.map Call.counting) = ownResolutions calls := by
  induction calls using List.reverseRecOn with
  | nil => rfl
  | append_singleton before call ih =>
    have hcall : resolvesOwn (before.map Call.counting) call.counting = resolvesOwn before call := by
      cases call with
      | resolve name slot => exact owns_counting before name
      | _ => rfl
    rw [List.map_append, List.map_singleton, ownResolutions_concat, ownResolutions_concat, hcall, ih]

theorem counted_counting (calls : List (Call ω)) : ∀ call ∈ calls.map Call.counting, call.Counted Prod.snd := by
  intro call hcall
  obtain ⟨original, -, rfl⟩ := List.mem_map.1 hcall
  cases original with
  | register => exact fun _ => rfl
  | _ => trivial

theorem Step.counted_call? (steps : List Step) : ∀ call ∈ steps.filterMap Step.call?, call.Counted id := by
  intro call hcall
  obtain ⟨step, -, hstep⟩ := List.mem_filterMap.1 hcall
  cases step with
  | register => cases hstep; exact fun _ => rfl
  | registerDefault | resolve | compile => cases hstep; trivial
  | _ => cases hstep

/-- **A factory runs once for each resolution of its name, and at no other time.**  The factories that a client registers run,
all told, as often as it resolves a name that it last registered under one of them; a session counts the same.  No other call
runs a factory, and a query changes nothing.  Resolving a name that is not there leaves everything as it was, also the log. -/
theorem factories_run_once_per_resolution (start : Start) :
    (∀ (world : ω) (calls : List (Call ω)),
      ((start.client (world, 0)).after (calls.map Call.counting)).world.2 = ownResolutions calls) ∧
    (∀ steps, (start.session.after steps).runs = ownResolutions (steps.filterMap Step.call?)) ∧
    (∀ (c : Client ω) name slot, ∀ factory ∈ c.registry.factory? name,
      (c.perform (.resolve name slot)).value.world = (factory c.world).2) ∧
    (∀ (c : Client ω) call, (∀ name slot, call ≠ .resolve name slot) → (c.perform call).value.world = c.world) ∧
    (∀ (s : Session) step, step.call? = none → (s.perform step).value.2 = s ∧ (s.perform step).log = []) ∧
    ∀ (c : Client ω) name slot, name ∉ c.registry.names → c.perform (.resolve name slot) = pure c := by
  refine ⟨fun world calls => ?_, fun steps => ?_, fun c name slot factory hfactory => ?_, fun c call => c.world_perform,
    fun s step hstep => ?_, fun c name slot hname => ?_⟩
  · have hcount := tally_after start Prod.snd (world, 0) (counted_counting calls)
    rwa [ownResolutions_counting, Nat.zero_add] at hcount
  · have hclient : (start.session.after steps).client = (start.client 0).after (steps.filterMap Step.call?) :=
      start.session.client_after steps
    have hcount := tally_after start id 0 (Step.counted_call? steps)
    rw [← hclient] at hcount
    exact hcount.trans (Nat.zero_add _)
  · rw [c.perform_resolve_of_some hfactory]
  · cases step with
    | register | registerDefault | resolve | compile => cases hstep
    | _ => exact ⟨rfl, rfl⟩
  · refine c.perform_resolve_of_none (Option.not_isSome_iff_eq_none.1 fun hsome => ?_) slot
    exact hname (mem_names_iff.2 hsome)

end Registry
end QuantumKernel
