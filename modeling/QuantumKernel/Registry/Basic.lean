import QuantumKernel.Compiler
/-! # Registry — front-ends by name

A registry keeps one factory for each name, in the order of the names' UTF-8 bytes; a later registration takes the place
of an earlier one.  Each successful resolution runs the factory once, and a failed one runs none.  Factories may act on a
world of type `ω`, for instance one that counts their runs.
-/
namespace QuantumKernel

/-- A factory makes a compiler, and may change the world while it does. -/
abbrev Factory (ω : Type) := ω → Compiler × ω

/-- A factory that makes this compiler and leaves the world alone. -/
def Factory.of (c : Compiler) : Factory ω := fun world => (c, world)

structure Registry (ω : Type) where
  entries : List (Text × Factory ω) := []

namespace Registry

/-- The part of the program that the registry's records name. -/
def origin : Text := "qfront::core::registry".toList

variable {ω : Type}

def empty : Registry ω := {}

/-- Entries with the factory of one name replaced or, at its place in the order, added. -/
def insertEntry (name : Text) (factory : Factory ω) : List (Text × Factory ω) → List (Text × Factory ω)
  | [] => [(name, factory)]
  | entry :: rest =>
    if entry.1 = name then (name, factory) :: rest
    else if Text.Before name entry.1 then (name, factory) :: entry :: rest
    else entry :: insertEntry name factory rest

def factory? (r : Registry ω) (name : Text) : Option (Factory ω) := r.entries.lookup name

def contains (r : Registry ω) (name : Text) : Bool := (r.factory? name).isSome

/-- The names, in the order of their UTF-8 bytes. -/
def names (r : Registry ω) : List Text := r.entries.map Prod.fst

def size (r : Registry ω) : Nat := r.entries.length

def isEmpty (r : Registry ω) : Bool := r.entries.isEmpty

/-- The text of the record of a name's second registration. -/
def twiceText (name : Text) : Text := "front-end `".toList ++ name ++ "` registered twice, keeping the latest".toList

/-- The text of the record of a successful resolution. -/
def resolvedText (name : Text) : Text := "resolved front-end `".toList ++ name ++ "`".toList

/-- A registry in which the name has this factory; replacing an earlier one leaves a record. -/
def register (r : Registry ω) (name : Text) (factory : Factory ω) : Logged (Registry ω) := do
  if r.contains name then Logged.record .warn origin (twiceText name)
  return ⟨insertEntry name factory r.entries⟩

/-- A new compiler of the name's factory, and the world after making it. -/
def resolve (r : Registry ω) (name : Text) (world : ω) : Logged (Except CompileError Compiler × ω) :=
  match r.factory? name with
  | some factory =>
    let made := factory world
    ⟨(.ok made.1, made.2), [⟨.trace, origin, resolvedText name⟩]⟩
  | none => pure (.error (.notFound name r.names), world)

theorem value_register (r : Registry ω) (name : Text) (factory : Factory ω) :
    (r.register name factory).value = ⟨insertEntry name factory r.entries⟩ := by
  unfold register
  split
  · rfl
  · rfl

theorem log_register (r : Registry ω) (name : Text) (factory : Factory ω) :
    (r.register name factory).log = if r.contains name then [⟨.warn, origin, twiceText name⟩] else [] := by
  unfold register
  split
  · rfl
  · rfl

theorem resolve_of_some {r : Registry ω} {name : Text} {factory : Factory ω} (h : r.factory? name = some factory)
    (world : ω) : r.resolve name world =
      ⟨(.ok (factory world).1, (factory world).2), [⟨.trace, origin, resolvedText name⟩]⟩ := by
  unfold resolve
  rw [h]

theorem resolve_of_none {r : Registry ω} {name : Text} (h : r.factory? name = none) (world : ω) :
    r.resolve name world = pure (.error (.notFound name r.names), world) := by
  unfold resolve
  rw [h]

/-- A source compiled by the front-end of a name. -/
def compileAs (r : Registry ω) (name source : Text) (target : Target) (world : ω) :
    Logged (Except CompileError Ir) :=
  let resolved := r.resolve name world
  match resolved.value.1 with
  | .error e => ⟨.error e, resolved.log⟩
  | .ok compiler =>
    let compiled := compiler.compile source target
    ⟨compiled.value.1, resolved.log ++ compiled.log⟩

end Registry
end QuantumKernel
