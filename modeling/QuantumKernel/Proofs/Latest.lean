import QuantumKernel.Registry.Client
/-! # Latest — a registry is the map from names to their latest registrations

What a client's calls leave in a registry is what its registrations alone do, entered in order (`Client.registry_after`).
Entries stay in the order of their names' bytes (`Ordered.register`), so a registry is determined by the factory of each
name (`Ordered.ext`), and that is the latest one registered (`factory?_entered`).
-/
namespace QuantumKernel
namespace Registry

variable {ω : Type}

/-! ## The latest of a history -/

/-- The last registration of a name in a history. -/
def latest (history : List (Text × β)) (name : Text) : Option β := history.reverse.lookup name

theorem lookup_cons_eq (entry : Text × β) (rest : List (Text × β)) (name : Text) :
    (entry :: rest).lookup name = if entry.1 = name then some entry.2 else rest.lookup name := by
  rw [List.lookup_cons]
  by_cases h : entry.1 = name
  · rw [if_pos h, h, beq_self_eq_true]
  · rw [if_neg h, beq_false_of_ne (Ne.symm h)]

theorem lookup_map (g : β → γ) (name : Text) : ∀ entries : List (Text × β),
    (entries.map fun e => (e.1, g e.2)).lookup name = (entries.lookup name).map g
  | [] => rfl
  | entry :: rest => by
    rw [List.map_cons, lookup_cons_eq, lookup_cons_eq, lookup_map g name rest]
    by_cases h : entry.1 = name
    · simp [h]
    · simp [h]

theorem lookup_filter (name : Text) : ∀ entries : List (Text × β),
    (entries.filter fun e => e.1 = name).lookup name = entries.lookup name
  | [] => rfl
  | entry :: rest => by
    rw [lookup_cons_eq, List.filter_cons]
    by_cases h : entry.1 = name
    · simp [h, lookup_cons_eq]
    · simp [h, lookup_filter name rest]

theorem isSome_lookup_iff {name : Text} {entries : List (Text × β)} :
    (entries.lookup name).isSome = true ↔ name ∈ entries.map Prod.fst := by
  rw [List.lookup_isSome_iff, List.mem_map]
  exact exists_congr fun entry => and_congr_right fun _ => beq_iff_eq.trans eq_comm

theorem latest_append (a b : List (Text × β)) (name : Text) :
    latest (a ++ b) name = (latest b name).or (latest a name) := by
  rw [latest, List.reverse_append, List.lookup_append]
  rfl

theorem latest_cons (entry : Text × β) (history : List (Text × β)) (name : Text) :
    latest (entry :: history) name = (latest history name).or (if entry.1 = name then some entry.2 else none) := by
  rw [latest, List.reverse_cons, List.lookup_append, lookup_cons_eq]
  rfl

theorem latest_map (g : β → γ) (history : List (Text × β)) (name : Text) :
    latest (history.map fun e => (e.1, g e.2)) name = (latest history name).map g := by
  rw [latest, ← List.map_reverse, lookup_map]
  rfl

theorem latest_concat (history : List (Text × β)) (entry : Text × β) (name : Text) :
    latest (history ++ [entry]) name = if entry.1 = name then some entry.2 else latest history name := by
  rw [latest, List.reverse_concat, lookup_cons_eq]
  rfl

/-- Only the registrations of a name matter to it. -/
theorem latest_filter (history : List (Text × β)) (name : Text) :
    latest (history.filter fun e => e.1 = name) name = latest history name := by
  rw [latest, ← List.filter_reverse, lookup_filter]
  rfl

theorem isSome_latest_iff {history : List (Text × β)} {name : Text} :
    (latest history name).isSome = true ↔ name ∈ history.map Prod.fst := by
  rw [latest, isSome_lookup_iff, List.map_reverse, List.mem_reverse]

theorem mem_of_latest {history : List (Text × β)} {name : Text} {last : β} (h : latest history name = some last) :
    (name, last) ∈ history := by
  obtain ⟨before, after, hsplit, -⟩ := List.lookup_eq_some_iff.1 h
  rw [← List.mem_reverse, hsplit]
  exact List.mem_append_right _ (List.mem_cons_self ..)

/-! ## One registration -/

theorem lookup_insertEntry (name : Text) (factory : Factory ω) (other : Text) : ∀ entries : List (Text × Factory ω),
    (insertEntry name factory entries).lookup other = if name = other then some factory else entries.lookup other
  | [] => lookup_cons_eq (name, factory) [] other
  | entry :: rest => by
    unfold insertEntry
    split
    · rename_i h
      rw [lookup_cons_eq, lookup_cons_eq, h]
      split
      · rfl
      · rfl
    split
    · rw [lookup_cons_eq]
    · rename_i h _
      rw [lookup_cons_eq, lookup_cons_eq, lookup_insertEntry name factory other rest]
      by_cases hother : entry.1 = other
      · rw [if_pos hother, if_pos hother, if_neg fun hname => h (hother.trans hname.symm)]
      · rw [if_neg hother, if_neg hother]

/-- **A registration sets the factory of its name, and of no other.** -/
theorem factory?_register (r : Registry ω) (name : Text) (factory : Factory ω) (other : Text) :
    (r.register name factory).value.factory? other = if name = other then some factory else r.factory? other := by
  rw [value_register]
  exact lookup_insertEntry name factory other r.entries

theorem mem_names_iff {r : Registry ω} {name : Text} : name ∈ r.names ↔ (r.factory? name).isSome = true :=
  isSome_lookup_iff.symm

theorem mem_names_register {r : Registry ω} {name : Text} {factory : Factory ω} {other : Text} :
    other ∈ (r.register name factory).value.names ↔ name = other ∨ other ∈ r.names := by
  rw [mem_names_iff, mem_names_iff, factory?_register]
  by_cases h : name = other
  · simp [h]
  · simp [h]

def Ordered (r : Registry ω) : Prop := r.names.Pairwise Text.Before

theorem ordered_empty : (empty : Registry ω).Ordered := List.Pairwise.nil

theorem pairwise_insertEntry (name : Text) (factory : Factory ω) : ∀ entries : List (Text × Factory ω),
    (entries.map Prod.fst).Pairwise Text.Before →
      ((insertEntry name factory entries).map Prod.fst).Pairwise Text.Before
  | [], _ => List.pairwise_singleton _ _
  | entry :: rest, h => by
    obtain ⟨hentry, hrest⟩ := List.pairwise_cons.1 h
    unfold insertEntry
    split
    · rename_i heq
      rw [List.map_cons, ← heq]
      exact h
    split
    · rename_i hbefore
      refine List.pairwise_cons.2 ⟨fun other hother => ?_, h⟩
      rcases List.mem_cons.1 hother with rfl | hother
      · exact hbefore
      · exact hbefore.trans (hentry other hother)
    · rename_i hne hbefore
      -- what comes after `entry` now are the names that did, and the new one
      refine List.pairwise_cons.2 ⟨fun other hother => ?_, pairwise_insertEntry name factory rest hrest⟩
      have hother : other ∈ ((⟨rest⟩ : Registry ω).register name factory).value.names := by
        rw [value_register]
        exact hother
      rcases mem_names_register.1 hother with rfl | hother
      · exact Text.Before.of_not (Ne.symm hne) hbefore
      · exact hentry other hother

theorem Ordered.register {r : Registry ω} (h : r.Ordered) (name : Text) (factory : Factory ω) :
    (r.register name factory).value.Ordered := by
  rw [value_register]
  exact pairwise_insertEntry name factory r.entries h

theorem Ordered.nodup {r : Registry ω} (h : r.Ordered) : r.names.Nodup := h.imp Text.Before.ne

theorem Ordered.nodup_entries {r : Registry ω} (h : r.Ordered) : r.entries.Nodup :=
  (List.pairwise_map.1 h.nodup).imp fun hne heq => hne (congrArg Prod.fst heq)

theorem Ordered.mem_entries_iff {r : Registry ω} (h : r.Ordered) {entry : Text × Factory ω} :
    entry ∈ r.entries ↔ r.factory? entry.1 = some entry.2 := by
  rw [factory?, List.lookup_eq_some_iff]
  constructor
  · intro hentry
    obtain ⟨before, after, hsplit⟩ := List.append_of_mem hentry
    refine ⟨before, after, hsplit, fun other hother => bne_iff_ne.2 (Ne.symm ?_)⟩
    -- an entry further to the front has a name that comes before
    have hnames := h
    rw [Ordered, names, hsplit, List.map_append, List.map_cons] at hnames
    exact ((List.pairwise_append.1 hnames).2.2 _ (List.mem_map_of_mem hother) _ (List.mem_cons_self ..)).ne
  · rintro ⟨before, after, hsplit, -⟩
    rw [hsplit]
    exact List.mem_append_right _ (List.mem_cons_self ..)

/-- **A registry is determined by the factory of each name.** -/
theorem Ordered.ext {a b : Registry ω} (ha : a.Ordered) (hb : b.Ordered)
    (h : ∀ name, a.factory? name = b.factory? name) : a = b := by
  have hentries : a.entries.Perm b.entries := by
    refine (List.perm_ext_iff_of_nodup ha.nodup_entries hb.nodup_entries).2 fun entry => ?_
    rw [ha.mem_entries_iff, hb.mem_entries_iff, h]
  have heq := hentries.eq_of_pairwise (fun _ _ _ _ hab hba => absurd hba hab.asymm)
    (List.pairwise_map.1 ha) (List.pairwise_map.1 hb)
  cases a
  cases b
  exact congrArg Registry.mk heq

/-- **A second registration of a name leaves the names as they are.** -/
theorem Ordered.names_register_of_mem {r : Registry ω} (h : r.Ordered) {name : Text} (hname : name ∈ r.names)
    (factory : Factory ω) : (r.register name factory).value.names = r.names := by
  have hnames : (r.register name factory).value.names.Perm r.names := by
    refine (List.perm_ext_iff_of_nodup (h.register name factory).nodup h.nodup).2 fun other => ?_
    rw [mem_names_register]
    exact ⟨fun hor => hor.elim (fun heq => heq ▸ hname) id, Or.inr⟩
  exact hnames.eq_of_pairwise (fun _ _ _ _ hab hba => absurd hba hab.asymm) (h.register name factory) h

/-! ## Registrations in order -/

/-- A registry after the registrations of a history, in order. -/
def entered (r : Registry ω) (history : List (Text × Factory ω)) : Registry ω :=
  history.foldl (fun r entry => (r.register entry.1 entry.2).value) r

theorem Ordered.entered {r : Registry ω} (h : r.Ordered) : ∀ history : List (Text × Factory ω), (r.entered history).Ordered
  | [] => h
  | entry :: rest => (h.register entry.1 entry.2).entered rest

/-- **The factory of a name is the latest registered under it**, or the one that was there before. -/
theorem factory?_entered (r : Registry ω) (history : List (Text × Factory ω)) (name : Text) :
    (r.entered history).factory? name = (latest history name).or (r.factory? name) := by
  induction history generalizing r with
  | nil => rfl
  | cons entry rest ih =>
    have hstep : (r.entered (entry :: rest)).factory? name =
        ((r.register entry.1 entry.2).value.entered rest).factory? name := rfl
    rw [hstep, ih, factory?_register, latest_cons, Option.or_assoc]
    by_cases h : entry.1 = name
    · rw [if_pos h, if_pos h, Option.some_or]
    · rw [if_neg h, if_neg h, Option.none_or]

/-- A run or a compilation changes nothing but what is in the slots. -/
theorem Client.exists_slots_of_asked (c : Client ω) {call : Call ω} {slot source : Text} {target : Target}
    (hcall : call.asked? = some (slot, source, target)) : ∃ slots, (c.perform call).value = { c with slots } := by
  cases hslot : c.slots slot with
  | none =>
    rw [c.perform_of_asked_none hcall hslot]
    exact ⟨c.slots, rfl⟩
  | some held =>
    rw [c.perform_of_asked_some hcall hslot]
    exact ⟨_, rfl⟩

theorem Client.registry_perform_asked (c : Client ω) {call : Call ω} {slot source : Text} {target : Target}
    (hcall : call.asked? = some (slot, source, target)) : (c.perform call).value.registry = c.registry := by
  obtain ⟨slots, hslots⟩ := c.exists_slots_of_asked hcall
  rw [hslots]

theorem Client.registry_perform (c : Client ω) (call : Call ω) :
    (c.perform call).value.registry = c.registry.entered call.registration?.toList := by
  cases call with
  | register | registerDefault | build => rfl
  | resolve name slot =>
    cases hname : c.registry.factory? name with
    | none =>
      rw [c.perform_resolve_of_none hname]
      rfl
    | some factory =>
      rw [c.perform_resolve_of_some hname]
      rfl
  | run | compile => exact c.registry_perform_asked rfl

/-- **Only registrations change a registry.** -/
theorem Client.registry_after (c : Client ω) : ∀ calls : List (Call ω),
    (c.after calls).registry = c.registry.entered (calls.filterMap Call.registration?)
  | [] => rfl
  | call :: rest => by
    rw [Client.after_cons, Client.registry_after _ rest, Client.registry_perform, List.filterMap_cons]
    cases call.registration? with
    | none => rfl
    | some entry => rfl

/-! ## The registries that clients start from -/

/-- A registry at first: without names, or with the front-ends that come with the program. -/
inductive Start
  | empty
  | builtins

namespace Start

def registry : Start → Registry ω
  | empty => Registry.empty
  | builtins => withBuiltins

/-- The names at first, each with the compiler that its factory makes. -/
def registrations : Start → List (Text × Compiler)
  | empty => []
  | builtins => Registry.builtins

def history (start : Start) : List (Text × Factory ω) := start.registrations.map fun e => (e.1, Factory.of e.2)

def client (start : Start) (world : ω) : Client ω := { registry := start.registry, world }

theorem registry_eq (start : Start) : (start.registry : Registry ω) = Registry.empty.entered start.history := by
  cases start with
  | empty => rfl
  | builtins =>
    rw [entered, history, List.foldl_map]
    rfl

theorem ordered_registry (start : Start) : (start.registry : Registry ω).Ordered := by
  rw [registry_eq]
  exact ordered_empty.entered start.history

theorem factory?_registry (start : Start) (name : Text) :
    (start.registry : Registry ω).factory? name = latest start.history name := by
  rw [registry_eq, factory?_entered]
  exact Option.or_none

/-- What a registry has at first are factories that make the compilers of its registrations and do nothing else. -/
theorem exists_compiler_of_factory? {start : Start} {name : Text} {factory : Factory ω}
    (h : start.registry.factory? name = some factory) :
    ∃ compiler, latest start.registrations name = some compiler ∧ factory = Factory.of compiler := by
  rw [factory?_registry, history, latest_map] at h
  obtain ⟨compiler, hcompiler, rfl⟩ := Option.map_eq_some_iff.1 h
  exact ⟨compiler, hcompiler, rfl⟩

/-- **What calls leave of a registry is what the history of its registrations does.** -/
theorem factory?_after (start : Start) (world : ω) (calls : List (Call ω)) (name : Text) :
    ((start.client world).after calls).registry.factory? name =
      latest (start.history ++ calls.filterMap Call.registration?) name := by
  rw [Client.registry_after, factory?_entered, latest_append, ← factory?_registry]
  rfl

theorem ordered_after (start : Start) (world : ω) (calls : List (Call ω)) :
    ((start.client world).after calls).registry.Ordered := by
  rw [Client.registry_after]
  exact start.ordered_registry.entered _

end Start

/-! ## What a registry answers -/

/-- A registry that answers as the map from each name to its latest registration in a history. -/
structure Refines (r : Registry ω) (history : List (Text × Factory ω)) : Prop where
  increasing : r.names.Pairwise Text.Before
  nodup : r.names.Nodup
  mem_names : ∀ name, name ∈ r.names ↔ name ∈ history.map Prod.fst
  size : r.size = r.names.length
  isEmpty : r.isEmpty = true ↔ r.names = []
  contains : ∀ name, r.contains name = true ↔ name ∈ r.names
  resolves : ∀ name world, (∃ c, (r.resolve name world).value.1 = .ok c) ↔ name ∈ r.names
  /-- The compiler is what the latest factory makes, and is called what its front-end calls itself. -/
  hit : ∀ name, ∀ factory ∈ latest history name, ∀ world, ∃ c,
    (r.resolve name world).value = (.ok c, (factory world).2) ∧ c = (factory world).1 ∧
      c.name = c.pipeline.frontend.name c.pipeline.state
  miss : ∀ name, name ∉ r.names → ∀ world, (r.resolve name world).value = (.error (.notFound name r.names), world)

theorem Ordered.refines {r : Registry ω} (h : r.Ordered) {history : List (Text × Factory ω)}
    (hlatest : ∀ name, r.factory? name = latest history name) : r.Refines history where
  increasing := h
  nodup := h.nodup
  mem_names name := by rw [mem_names_iff, hlatest, isSome_latest_iff]
  size := by rw [size, names, List.length_map]
  isEmpty := by rw [isEmpty, List.isEmpty_iff, names, List.map_eq_nil_iff]
  contains name := mem_names_iff.symm
  resolves name world := by
    rw [mem_names_iff]
    cases hname : r.factory? name with
    | none => simp [resolve_of_none hname]
    | some factory => simp [resolve_of_some hname]
  hit name factory hfactory world := by
    have hname : r.factory? name = some factory := (hlatest name).trans hfactory
    rw [resolve_of_some hname]
    exact ⟨_, rfl, rfl, rfl⟩
  miss name hname world := by
    have hnone : r.factory? name = none := Option.not_isSome_iff_eq_none.1 fun hsome => hname (mem_names_iff.2 hsome)
    rw [resolve_of_none hnone]
    rfl

theorem resolve_congr {a b : Registry ω} (hnames : a.names = b.names) {name : Text}
    (hname : a.factory? name = b.factory? name) (world : ω) : a.resolve name world = b.resolve name world := by
  rw [resolve, resolve, hnames, hname]

/-- **A registry answers as the map from names to their latest registrations**, whatever calls it comes from: in the order
of the bytes its names are those registered, and what resolves is what the latest factory of a name makes.  A resolution
changes nothing, a second registration only what its own name resolves to, and of the order of registrations only that
of one name matters. -/
theorem answers_as_latest (start : Start) (world : ω) (calls : List (Call ω)) :
    let reached := ((start.client world).after calls).registry
    reached.Refines (start.history ++ calls.filterMap Call.registration?) ∧
    (∀ name slot, ((start.client world).after (calls ++ [.resolve name slot])).registry = reached) ∧
    (∀ name ∈ reached.names, ∀ factory,
      (reached.register name factory).value.names = reached.names ∧
      (reached.register name factory).value.size = reached.size ∧
      ∀ other, other ≠ name → ∀ w,
        (reached.register name factory).value.resolve other w = reached.resolve other w) ∧
    ∀ others : List (Call ω),
      (∀ name, (others.filterMap Call.registration?).filter (fun e => e.1 = name) =
        (calls.filterMap Call.registration?).filter (fun e => e.1 = name)) →
      ∀ w, ((start.client w).after others).registry = reached := by
  intro reached
  have hordered : reached.Ordered := start.ordered_after world calls
  refine ⟨hordered.refines (start.factory?_after world calls), fun name slot => ?_, fun name hname factory => ?_,
    fun others hothers w => ?_⟩
  · rw [Client.after_append, Client.after_singleton, Client.registry_perform]
    rfl
  · have hnames := hordered.names_register_of_mem hname factory
    refine ⟨hnames, ?_, fun other hother w => resolve_congr hnames ?_ w⟩
    · have hlength := congrArg List.length hnames
      rwa [names, names, List.length_map, List.length_map] at hlength
    · rw [factory?_register, if_neg (Ne.symm hother)]
  · refine (start.ordered_after w others).ext hordered fun name => ?_
    -- the latest registration of a name is the latest of its own
    have hlatest : latest (others.filterMap Call.registration?) name = latest (calls.filterMap Call.registration?) name := by
      rw [← latest_filter, hothers name, latest_filter]
    rw [start.factory?_after, start.factory?_after, latest_append, latest_append, hlatest]

example : ((Start.builtins.client ()).after [.registerDefault "é".toList Frontend.uppercase.compiler,
      .registerDefault [] Frontend.bracketed.compiler, .resolve "toy".toList []]).registry.names =
    [[], "broken".toList, "gates".toList, "toy".toList, "toy2".toList, "é".toList] := by rfl

end Registry
end QuantumKernel
