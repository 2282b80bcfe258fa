import QuantumKernel.Frontend.Basic
import QuantumKernel.Ir
/-! # Scripted — a front-end told what to do

A script says how the source is edited, in steps, and how it is translated.  The front-end remembers what it saw each time
it translated, also when it failed.
-/
namespace QuantumKernel

/-- One step of editing a source. -/
inductive Edit
  | set (text : Text)
  | append (text : Text)
  | prepend (text : Text)
  | wrap (before after : Text)
  /-- The target's name goes to the end. -/
  | appendTarget
  | clear
  deriving DecidableEq

/-- The source after one step. -/
def Edit.apply (target : Target) (source : Text) : Edit → Text
  | set text => text
  | append text => source ++ text
  | prepend text => text ++ source
  | wrap before after => before ++ source ++ after
  | appendTarget => source ++ target.name
  | clear => []

/-- How a source is translated. -/
inductive Action
  | echo
  | nonempty
  | missing
  | fail (error : CompileError)
  deriving DecidableEq

/-- What a scripted front-end is called and does. -/
structure Script where
  name : Text := "script".toList
  edits : List Edit := []
  action : Action := .echo
  deriving DecidableEq

namespace Script

/-- The source after every step, in order. -/
def edited (script : Script) (unit : CompilationUnit) : Text := script.edits.foldl (Edit.apply unit.target) unit.source

/-- What is made of a normalized source. -/
def result (script : Script) (source : Text) : Except CompileError TextIr :=
  match script.action with
  | .echo => .ok ⟨source⟩
  | .nonempty => if source = [] then .error (.compilation script.name [] none "empty source".toList) else .ok ⟨source⟩
  | .missing => .error (.missingTranslate script.name)
  | .fail error => .error error

end Script

/-- What a front-end saw when it translated: the source, the target's name and its number of qubits. -/
structure Sighting where
  source : Text
  target : Text
  qubits : Option UInt64
  deriving DecidableEq

def CompilationUnit.sighting (unit : CompilationUnit) : Sighting := ⟨unit.source, unit.target.name, unit.target.qubits⟩

/-- The state of a scripted front-end: its script, and what it has seen so far. -/
structure Scripted where
  script : Script := {}
  seen : List Sighting := []
  deriving DecidableEq

/-- The same memory under another script. -/
def Scripted.rescript (state : Scripted) (script : Script) : Scripted := { state with script }

namespace Frontend

/-- A front-end that does what its script says and remembers what it saw. -/
def scripted : Frontend Scripted TextIr where
  name state := state.script.name
  normalize state unit := pure (state.script.edited unit, state)
  translate state unit :=
    pure (state.script.result unit.source, { state with seen := state.seen ++ [unit.sighting] })

end Frontend
end QuantumKernel
