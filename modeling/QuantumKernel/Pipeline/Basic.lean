import QuantumKernel.Frontend.Basic
import QuantumKernel.Ir
import QuantumKernel.Text.Decimal
/-! # Pipeline — one compilation after another through a front-end

A pipeline is a front-end in its present state.  A run stages the caller's source, lets the front-end normalize it and
translate what it left, and accounts for itself in the log: one record at the start, one with the staged source if that
is not the caller's, and one at the end.
-/
namespace QuantumKernel

structure Pipeline (σ α : Type) where
  frontend : Frontend σ α
  state : σ

namespace Pipeline

/-- The part of the program that a run's records name. -/
def origin : Text := "qfront::core::compiler".toList

/-- The text of the record at the start of a run. -/
def startText (name source : Text) (target : Target) : Text :=
  name ++ ": compiling ".toList ++ Text.decimal source.utf8Length ++ " bytes for target `".toList ++ target.name
    ++ "`".toList

/-- The text of the record of a staged source that is not the caller's. -/
def stagedText (name staged : Text) : Text := name ++ ": normalized source:\n".toList ++ staged

/-- The record of a staged source; there is none for the caller's own source. -/
def logStaged (name source staged : Text) : Logged PUnit :=
  if staged = source then pure ⟨⟩ else Logged.record .trace origin (stagedText name staged)

/-- The record at the end of a run: completion, or the error, a defect being the most severe. -/
def logEnd (name : Text) : Except CompileError α → Logged PUnit
  | .ok _ => Logged.record .trace origin (name ++ ": translation complete".toList)
  | .error e => Logged.record (if e.isDefect then .error else .debug) origin e.message

variable {σ α : Type}

/-- What the front-end is called at present. -/
def name (p : Pipeline σ α) : Text := p.frontend.name p.state

/-- One compilation: its result, and the pipeline after it. -/
def run (p : Pipeline σ α) (source : Text) (target : Target) :
    Logged (Except CompileError α × Pipeline σ α) := do
  Logged.record .debug origin (startText p.name source target)
  let (staged, normalized) ← p.frontend.normalize p.state ⟨source, target⟩
  logStaged (p.frontend.name normalized) source staged
  let (result, final) ← p.frontend.translate normalized ⟨staged, target⟩
  logEnd (p.frontend.name final) result
  return (result, ⟨p.frontend, final⟩)

def result (p : Pipeline σ α) (source : Text) (target : Target) : Except CompileError α := (p.run source target).value.1

/-- A run whose result is put among the representations of every kind. -/
def compile [ToIr α] (p : Pipeline σ α) (source : Text) (target : Target) :
    Logged (Except CompileError Ir × Pipeline σ α) := do
  let (result, after) ← p.run source target
  return (result.map ToIr.toIr, after)

end Pipeline

def Frontend.pipeline (frontend : Frontend Unit α) : Pipeline Unit α := ⟨frontend, ()⟩

end QuantumKernel
