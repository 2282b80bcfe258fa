import QuantumKernel.Text.Decimal
/-! # CompileError — why a compilation failed

A defect is a fault of the front-end itself; every other error is one that the caller can react to, by changing the
source, the target or the front-end's name.
-/
namespace QuantumKernel

/-- Why a compilation failed. -/
inductive CompileError
  /-- The front-end is incomplete. -/
  | defect (frontend reason : Text)
  /-- The source is invalid at a fragment, which may have a line. -/
  | compilation (frontend fragment : Text) (line : Option Nat) (reason : Text)
  | unsupportedTarget (frontend target reason : Text)
  | notFound (name : Text) (available : List Text)
  deriving DecidableEq

namespace CompileError

/-- The defect of a front-end that cannot translate. -/
def missingTranslate (frontend : Text) : CompileError :=
  .defect frontend "translate must be provided by the front-end".toList

/-- A compilation error placed at a line, counted from 1; any other error has no line and stays as it is. -/
def atLine (line : Nat) : CompileError → CompileError
  | .compilation frontend fragment _ reason => .compilation frontend fragment (some line) reason
  | e => e

def isDefect : CompileError → Bool
  | .defect .. => true
  | _ => false

def isRecoverable (e : CompileError) : Bool := !e.isDefect

/-- Where a fragment stands, if that is known. -/
def place : Option Nat → Text
  | none => []
  | some line => " at line ".toList ++ Text.decimal line

def message : CompileError → Text
  | .defect frontend reason => "front-end `".toList ++ frontend ++ "` is defective: ".toList ++ reason
  | .compilation frontend fragment line reason =>
    frontend ++ ": ".toList ++ reason ++ place line ++ ": `".toList ++ fragment ++ "`".toList
  | .unsupportedTarget frontend target reason =>
    "front-end `".toList ++ frontend ++ "` cannot target `".toList ++ target ++ "`: ".toList ++ reason
  | .notFound name available =>
    "no front-end registered as `".toList ++ name ++ "` (available: ".toList
      ++ (", ".toList).intercalate available ++ ")".toList

end CompileError
end QuantumKernel
