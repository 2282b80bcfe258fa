import QuantumKernel.CommandLine.Directory
import QuantumKernel.CommandLine.Options
import QuantumKernel.Registry.Builtin
/-! # Report — what an invocation prints and how it exits

The source is read before the front-end is looked up.  A compilation prints the text of its representation, or leaves an
error; its records go before the error, as far as the reader of the log asks for them.
-/
namespace QuantumKernel
namespace CommandLine

/-- What an invocation leaves: its exit status, what it prints, the records that are shown, and the error after them. -/
structure Report where
  exit : Nat
  stdout : Text
  log : List LogRecord
  complaint : Text
  deriving DecidableEq

/-- The records that are shown, one after the other, and then the error. -/
def Report.stderr (r : Report) : Text := r.log.flatMap LogRecord.line ++ r.complaint

/-- An error as the last line of an invocation. -/
def errorLine (message : Text) : Text := "Error: ".toList ++ message ++ ['\n']

def helpText : Text :=
  ("Compile kernel source to IR\n\n"
    ++ "Usage: qfront [OPTIONS] [INPUT]\n\n"
    ++ "Arguments:\n"
    ++ "  [INPUT]  Kernel source file (reads stdin when omitted)\n\n"
    ++ "Options:\n"
    ++ "  -l, --lang <LANG>      Front-end to compile with [default: gates]\n"
    ++ "  -t, --target <TARGET>  Target accelerator name [default: simulator]\n"
    ++ "      --qubits <QUBITS>  Number of qubits the target provides\n"
    ++ "      --list             List registered front-ends and exit\n"
    ++ "  -v, --verbose          Log at debug level unless RUST_LOG says otherwise\n"
    ++ "  -h, --help             Print help\n"
    ++ "  -V, --version          Print version\n").toList

def versionText : Text := "qfront 0.1.0\n".toList

/-- Text on standard output and nothing else. -/
def Report.printed (text : Text) : Report := ⟨0, text, [], []⟩

/-- The source in a file, or why it cannot be read. -/
def decoded (content : Except ReadError ByteArray) : Except ReadError Text :=
  match content with
  | .error e => .error e
  | .ok bytes =>
    match Text.ofUtf8? bytes with
    | none => .error .notUtf8
    | some source => .ok source

/-- **A source can be read exactly when it is the bytes of a text.** -/
theorem decoded_eq_ok_iff {content : Except ReadError ByteArray} {source : Text} :
    decoded content = .ok source ↔ content = .ok source.utf8.toByteArray := by
  cases content with
  | error e => simp [decoded]
  | ok bytes =>
    rw [Except.ok.injEq, ← Text.ofUtf8?_eq_some_iff, decoded]
    cases Text.ofUtf8? bytes with
    | none => simp
    | some text => simp

theorem of_decoded_eq_error {content : Except ReadError ByteArray} {e : ReadError} (h : decoded content = .error e) :
    content = .error e ∨ e = .notUtf8 ∧ ∃ bytes, content = .ok bytes := by
  cases content with
  | error e' =>
    cases h
    exact .inl rfl
  | ok bytes =>
    rw [decoded] at h
    split at h
    · cases h
      exact .inr ⟨rfl, bytes, rfl⟩
    · cases h

namespace Options

/-- Which records are shown: what the environment asks for, or else debug and worse if verbose, and warn and worse. -/
def filter (o : Options) (setting : Option LogFilter) : LogFilter :=
  setting.getD (.upTo (if o.verbose then .debug else .warn))

def compile (o : Options) (source : Text) : Logged (Except CompileError Ir) :=
  Registry.withBuiltins.compileAs o.lang source o.targetOf ()

/-- The report of a compilation; a defect exits with 2, any other error with 1. -/
def reportOf (o : Options) (setting : Option LogFilter) (compiled : Logged (Except CompileError Ir)) : Report :=
  let log := (o.filter setting).select compiled.log
  match compiled.value with
  | .ok ir => ⟨0, ir.toText ++ ['\n'], log, []⟩
  | .error e => ⟨if e.isDefect then 2 else 1, [], log, errorLine e.message⟩

/-- The names of the front-ends, one a line. -/
def listing : Text := (Registry.withBuiltins : Registry Unit).names.flatMap (· ++ ['\n'])

/-- The report of an invocation with these options, given what its source holds. -/
def report (o : Options) (content : Except ReadError ByteArray) (setting : Option LogFilter) : Report :=
  if o.list then .printed listing
  else match decoded content with
    | .error e => ⟨1, [], [], errorLine e.message⟩
    | .ok source => o.reportOf setting (o.compile source)

end Options

/-- What a request leads to, given what the input that it names holds. -/
def Request.report (request : Request) (read : Option Text → Except ReadError ByteArray)
    (setting : Option LogFilter) : Report :=
  match request with
  | .help => .printed helpText
  | .version => .printed versionText
  | .run options => options.report (read options.input) setting

def invoke (arguments : List Text) (read : Option Text → Except ReadError ByteArray) (setting : Option LogFilter) :
    Except UsageError Report :=
  (Request.ofArguments arguments).map fun request => request.report read setting

end CommandLine
end QuantumKernel
