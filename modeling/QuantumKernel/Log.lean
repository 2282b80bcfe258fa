import QuantumKernel.Text.Blank
import QuantumKernel.Text.Control
import QuantumKernel.Text.Lines
/-! # Log — records, what a reader of them asks for, and computations that leave them

A computation in `Logged` has a value and the records it left, in order; `log_bind` says that one after the other leaves
the records of the first and then those of the second.  A `LogFilter` admits records by severity and never reorders them
(`LogFilter.select`).
-/
namespace QuantumKernel

inductive Level
  | error | warn | info | debug | trace
  deriving DecidableEq

namespace Level

/-- The place of a level in the order of severity, the most severe first. -/
def rank : Level → Nat
  | error => 0
  | warn => 1
  | info => 2
  | debug => 3
  | trace => 4

def name : Level → Text
  | error => "ERROR".toList
  | warn => "WARN".toList
  | info => "INFO".toList
  | debug => "DEBUG".toList
  | trace => "TRACE".toList

end Level

/-- One record: its level, the part of the program that left it, and its text. -/
structure LogRecord where
  level : Level
  origin : Text
  text : Text
  deriving DecidableEq

/-- The record with its level and origin in front: the level is padded to five columns, and what follows a line feed
inside the text is indented by four.  The time stamp that goes in front of the level is left out: no result depends on it. -/
def LogRecord.framed (r : LogRecord) : Text :=
  "[".toList ++ r.level.name.rightpad 5 ' ' ++ " ".toList ++ r.origin ++ "] ".toList
    ++ r.text.flatMap (fun c => if c = '\n' then "\n    ".toList else [c]) ++ ['\n']

/-- The record as a line of the log, without control sequences.  A string that the text leaves open takes the line feed
at the end with it. -/
def LogRecord.line (r : LogRecord) : Text := Text.plain r.framed

/-- Whether all of a record is shown. -/
def LogRecord.Shown (r : LogRecord) : Prop := Text.Shown r.origin ∧ Text.Shown r.text

theorem LogRecord.shown_framed_iff {r : LogRecord} : Text.Shown r.framed ↔ r.Shown := by
  have hlevel : Text.Shown (r.level.name.rightpad 5 ' ') := by cases r.level <;> decide
  have hindented : Text.Shown (r.text.flatMap fun c => if c = '\n' then "\n    ".toList else [c]) ↔ Text.Shown r.text := by
    constructor
    · intro h c hc
      refine h c (List.mem_flatMap.2 ⟨c, hc, ?_⟩)
      split <;> simp [*]
    · intro h c hc
      obtain ⟨d, hd, hcd⟩ := List.mem_flatMap.1 hc
      split at hcd
      · exact (by decide : Text.Shown "\n    ".toList) c hcd
      · rw [List.mem_singleton.1 hcd]
        exact h d hd
  have hsigns : Text.Shown "[".toList ∧ Text.Shown " ".toList ∧ Text.Shown "] ".toList ∧ Text.Shown ['\n'] := by decide
  obtain ⟨hopen, hspace, hclose, hfeed⟩ := hsigns
  simp only [framed, Shown, Text.shown_append, hindented, hlevel, hopen, hspace, hclose, hfeed, true_and, and_true]

/-- **A record is printed as it is framed exactly when all of it is shown.** -/
theorem LogRecord.line_eq_framed_iff {r : LogRecord} : r.line = r.framed ↔ r.Shown :=
  Text.plain_eq_self_iff.trans shown_framed_iff

/-- Which records a reader asks for: none, or those at least as severe as a level. -/
inductive LogFilter
  | off
  | upTo (level : Level)
  deriving DecidableEq

namespace LogFilter

/-- Whether a filter lets a record of this level through. -/
def admits : LogFilter → Level → Bool
  | off, _ => false
  | upTo limit, level => decide (level.rank ≤ limit.rank)

/-- The records that a filter lets through, in order. -/
def select (f : LogFilter) (log : List LogRecord) : List LogRecord := log.filter fun r => f.admits r.level

def ofName? (name : Text) : Option LogFilter :=
  [("off".toList, off), ("error".toList, upTo .error), ("warn".toList, upTo .warn), ("info".toList, upTo .info),
   ("debug".toList, upTo .debug), ("trace".toList, upTo .trace)].lookup name

/-- What a variable of the environment asks for: of the words between its commas the last that names a level, in letters of
either case, or errors alone if there are no words.  Other words, which may ask for single parts of a program or for records
that match a pattern, are not read; where there is nothing else, nothing is shown. -/
def ofVariable (value : Text) : LogFilter :=
  let words := ((Text.splitWhere (· == ',') value).map Text.trim).filter (· ≠ [])
  match (words.filterMap fun word => ofName? (word.map Char.toLower)).getLast? with
  | some asked => asked
  | none => if words = [] then upTo .error else off

@[simp] theorem select_nil (f : LogFilter) : f.select [] = [] := rfl

@[simp] theorem select_append (f : LogFilter) (a b : List LogRecord) :
    f.select (a ++ b) = f.select a ++ f.select b := List.filter_append ..

end LogFilter

/-- A value together with the records left on the way to it. -/
structure Logged (α : Type u) where
  value : α
  log : List LogRecord

namespace Logged

def record (level : Level) (origin text : Text) : Logged PUnit := ⟨⟨⟩, [⟨level, origin, text⟩]⟩

def quiet (a : α) : Logged α := ⟨a, []⟩

def andThen (x : Logged α) (f : α → Logged β) : Logged β := ⟨(f x.value).value, x.log ++ (f x.value).log⟩

instance : Monad Logged where
  pure := quiet
  bind := andThen

@[simp] theorem value_pure (a : α) : (pure a : Logged α).value = a := rfl

@[simp] theorem log_pure (a : α) : (pure a : Logged α).log = [] := rfl

@[simp] theorem value_bind (x : Logged α) (f : α → Logged β) : (x >>= f).value = (f x.value).value := rfl

@[simp] theorem log_bind (x : Logged α) (f : α → Logged β) : (x >>= f).log = x.log ++ (f x.value).log := rfl

@[simp] theorem log_record (level : Level) (origin text : Text) :
    (record level origin text).log = [⟨level, origin, text⟩] := rfl

@[ext] theorem ext {x y : Logged α} (hv : x.value = y.value) (hl : x.log = y.log) : x = y := by
  cases x; cases y; simp_all

instance : LawfulMonad Logged := LawfulMonad.mk' Logged
  (fun x => by ext1 <;> simp [Functor.map, quiet, andThen])
  (fun a f => by ext1 <;> simp)
  (fun x f g => by ext1 <;> simp [List.append_assoc])

end Logged
end QuantumKernel
