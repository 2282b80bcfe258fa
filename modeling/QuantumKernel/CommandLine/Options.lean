import QuantumKernel.Target
import QuantumKernel.Text.Decimal
/-! # Options — what a command line asks for

Arguments are read from left to right into settings (`readSettings`), and settings are taken up one by one into a
request (`conclude`).  The first thing that ends this decides: a fault, a request for help, or one for the version.

A value follows its option as the next argument, unless that starts with `-` and is longer than that; or it is attached,
after `=` or, for a short option, directly.  Short flags may share one dash, and the last letter may be an option with a
value.  After `--` every argument is an operand.
-/
namespace QuantumKernel
namespace CommandLine

/-- The options that take a value. -/
inductive Key
  | lang | target | qubits
  deriving DecidableEq

/-- The options that take none. -/
inductive Flag
  | list | verbose | help | version
  deriving DecidableEq

def Key.name : Key → Text
  | lang => "lang".toList
  | target => "target".toList
  | qubits => "qubits".toList

def Flag.name : Flag → Text
  | list => "list".toList
  | verbose => "verbose".toList
  | help => "help".toList
  | version => "version".toList

/-- What one option or operand sets. -/
inductive Setting
  | value (key : Key) (text : Text)
  | flag (flag : Flag)
  | operand (path : Text)
  deriving DecidableEq

/-- Why a command line is refused. -/
inductive UsageError
  | unknownOption (argument : Text)
  | missingValue (key : Key)
  | unexpectedValue (flag : Flag)
  | repeatedKey (key : Key)
  | repeatedFlag (flag : Flag)
  | invalidCount (text : Text)
  | emptyOperand
  | secondOperand (path : Text)
  deriving DecidableEq

/-- What is said of a refusal.  Only that there is one is fixed, and with which exit status: the words are this program's own,
and those of another reader of the same options differ. -/
def UsageError.message : UsageError → Text
  | unknownOption argument => "unknown option ".toList ++ argument
  | missingValue key => key.name ++ " needs a value".toList
  | unexpectedValue flag => flag.name ++ " takes no value".toList
  | repeatedKey key => key.name ++ " is given twice".toList
  | repeatedFlag flag => flag.name ++ " is given twice".toList
  | invalidCount text => "not a number of qubits: ".toList ++ text
  | emptyOperand => "the name of the input is empty".toList
  | secondOperand path => "a second input: ".toList ++ path

/-! ## Reading arguments -/

def Key.ofName? (name : Text) : Option Key :=
  [(lang.name, lang), (target.name, target), (qubits.name, qubits)].lookup name

def Key.ofLetter? (letter : Char) : Option Key := [('l', lang), ('t', target)].lookup letter

def Flag.ofName? (name : Text) : Option Flag :=
  [(list.name, list), (verbose.name, verbose), (help.name, help), (version.name, version)].lookup name

def Flag.ofLetter? (letter : Char) : Option Flag := [('v', verbose), ('h', help), ('V', version)].lookup letter

/-- What one argument sets, in order, and the option that still waits for its value. -/
structure Parsed where
  settings : List (Except UsageError Setting)
  waiting : Option Key := none

/-- A long option, after its two dashes. -/
def readLong (body : Text) : Parsed :=
  let name := body.takeWhile (· != '=')
  let attached := (body.dropWhile (· != '=')).tail?
  match Key.ofName? name, Flag.ofName? name, attached with
  | some key, _, some text => ⟨[.ok (.value key text)], none⟩
  | some key, _, none => ⟨[], some key⟩
  | none, some flag, none => ⟨[.ok (.flag flag)], none⟩
  | none, some flag, some _ => ⟨[.error (.unexpectedValue flag)], none⟩
  | none, none, _ => ⟨[.error (.unknownOption name)], none⟩

/-- The value attached to a short option: one `=` in front of it does not count. -/
def attachedValue : Text → Text
  | '=' :: text => text
  | text => text

/-- The letters after a single dash. -/
def readLetters : Text → Parsed
  | [] => ⟨[], none⟩
  | letter :: rest =>
    match Flag.ofLetter? letter, Key.ofLetter? letter with
    | some flag, _ => { readLetters rest with settings := .ok (.flag flag) :: (readLetters rest).settings }
    | none, some key => if rest = [] then ⟨[], some key⟩ else ⟨[.ok (.value key (attachedValue rest))], none⟩
    | none, none => ⟨[.error (.unknownOption [letter])], none⟩

/-- One argument: a long option, letters after a dash, or an operand; a lone dash is an operand. -/
def readArgument : Text → Parsed
  | '-' :: '-' :: body => readLong body
  | '-' :: letter :: rest => readLetters (letter :: rest)
  | path => ⟨[.ok (.operand path)], none⟩

/-- Whether an argument may be the value of the option before it. -/
def mayFollow : Text → Bool
  | '-' :: _ :: _ => false
  | _ => true

/-- What arguments set, in order, up to the first that cannot be read. -/
def readSettings : List Text → List (Except UsageError Setting)
  | [] => []
  | argument :: rest =>
    if argument = "--".toList then rest.map fun path => .ok (.operand path)
    else
      let parsed := readArgument argument
      match parsed.waiting with
      | none => parsed.settings ++ readSettings rest
      | some key =>
        match rest with
        | [] => parsed.settings ++ [.error (.missingValue key)]
        | text :: others =>
          if mayFollow text then parsed.settings ++ .ok (.value key text) :: readSettings others
          else parsed.settings ++ [.error (.missingValue key)]

/-- What is read where an option waits for its value. -/
def readValue (key : Key) : List Text → List (Except UsageError Setting)
  | [] => [.error (.missingValue key)]
  | text :: rest => if mayFollow text then .ok (.value key text) :: readSettings rest else [.error (.missingValue key)]

/-- What is read of the other arguments, where an option may wait for its value. -/
def readOthers : Option Key → List Text → List (Except UsageError Setting)
  | none => readSettings
  | some key => readValue key

theorem readSettings_cons {argument : Text} (hargument : argument ≠ "--".toList)
    {settings : List (Except UsageError Setting)} {waiting : Option Key} (hread : readArgument argument = ⟨settings, waiting⟩)
    (rest : List Text) : readSettings (argument :: rest) = settings ++ readOthers waiting rest := by
  rw [readSettings, if_neg hargument, hread]
  cases waiting with
  | none => rfl
  | some key =>
    cases rest with
    | nil => rfl
    | cons text rest => by_cases hfollow : mayFollow text = true <;> simp [readOthers, readValue, hfollow]

theorem readSettings_dashes (paths : List Text) :
    readSettings ("--".toList :: paths) = paths.map fun path => .ok (.operand path) := by
  rw [readSettings, if_pos rfl]

/-! ## Taking up settings -/

/-- What a compilation is asked to do. -/
structure Options where
  lang : Text := "gates".toList
  target : Text := "simulator".toList
  qubits : Option UInt64 := none
  list : Bool := false
  verbose : Bool := false
  input : Option Text := none
  deriving DecidableEq

/-- What a command line asks for. -/
inductive Request
  | help
  | version
  | run (options : Options)
  deriving DecidableEq

/-- The settings taken up so far. -/
structure Draft where
  lang : Option Text := none
  target : Option Text := none
  qubits : Option UInt64 := none
  list : Bool := false
  verbose : Bool := false
  input : Option Text := none
  deriving DecidableEq

/-- A number of qubits: a decimal word, which may have a plus sign. -/
def countOf? (text : Text) : Option UInt64 :=
  let digits := match text with
    | '+' :: rest => rest
    | _ => text
  match Text.decimal? digits with
  | some n => if n < UInt64.size then some (UInt64.ofNat n) else none
  | none => none

namespace Draft

/-- A draft with one more option that has a value; none may be given twice. -/
def addValue (d : Draft) (text : Text) : Key → Except UsageError Draft
  | .lang => if d.lang.isSome then .error (.repeatedKey .lang) else .ok { d with lang := some text }
  | .target => if d.target.isSome then .error (.repeatedKey .target) else .ok { d with target := some text }
  | .qubits =>
    if d.qubits.isSome then .error (.repeatedKey .qubits)
    else match countOf? text with
      | some n => .ok { d with qubits := some n }
      | none => .error (.invalidCount text)

/-- A draft with one more flag; none may be given twice. -/
def addFlag (d : Draft) : Flag → Except UsageError Draft
  | .list => if d.list then .error (.repeatedFlag .list) else .ok { d with list := true }
  | .verbose => if d.verbose then .error (.repeatedFlag .verbose) else .ok { d with verbose := true }
  | .help | .version => .ok d

/-- A draft with an operand; there may be one, and it may not be empty. -/
def addOperand (d : Draft) (path : Text) : Except UsageError Draft :=
  if d.input.isSome then .error (.secondOperand path)
  else if path = [] then .error .emptyOperand
  else .ok { d with input := some path }

def add (d : Draft) : Setting → Except UsageError Draft
  | .value key text => d.addValue text key
  | .flag flag => d.addFlag flag
  | .operand path => d.addOperand path

def options (d : Draft) : Options where
  lang := d.lang.getD "gates".toList
  target := d.target.getD "simulator".toList
  qubits := d.qubits
  list := d.list
  verbose := d.verbose
  input := d.input

end Draft

/-- The request that settings make, given those taken up before them. -/
def conclude (d : Draft) : List (Except UsageError Setting) → Except UsageError Request
  | [] => .ok (.run d.options)
  | .error e :: _ => .error e
  | .ok (.flag .help) :: _ => .ok .help
  | .ok (.flag .version) :: _ => .ok .version
  | .ok setting :: rest =>
    match d.add setting with
    | .error e => .error e
    | .ok next => conclude next rest

theorem conclude_ok_cons (d : Draft) {setting : Setting} (hhelp : setting ≠ .flag .help)
    (hversion : setting ≠ .flag .version) (rest : List (Except UsageError Setting)) :
    conclude d (.ok setting :: rest) = (d.add setting).bind fun next => conclude next rest := by
  rw [conclude]
  · cases d.add setting with
    | error e => rfl
    | ok next => rfl
  · rintro rfl
    exact hhelp rfl
  · rintro rfl
    exact hversion rfl

/-- A request is made by the first setting, or else that is taken up and the others make it. -/
theorem of_conclude_cons {d : Draft} {x : Except UsageError Setting} {rest : List (Except UsageError Setting)}
    {request : Request} (h : conclude d (x :: rest) = .ok request) :
    x = .ok (.flag .help) ∧ request = .help ∨ x = .ok (.flag .version) ∧ request = .version ∨
      ∃ setting next, x = .ok setting ∧ setting ≠ .flag .help ∧ setting ≠ .flag .version ∧ d.add setting = .ok next ∧
        conclude next rest = .ok request := by
  cases x with
  | error e =>
    rw [conclude] at h
    cases h
  | ok setting =>
    by_cases hhelp : setting = .flag .help
    · subst hhelp
      cases h
      exact .inl ⟨rfl, rfl⟩
    by_cases hversion : setting = .flag .version
    · subst hversion
      cases h
      exact .inr (.inl ⟨rfl, rfl⟩)
    rw [conclude_ok_cons d hhelp hversion] at h
    cases hadd : d.add setting with
    | error e =>
      rw [hadd] at h
      cases h
    | ok next =>
      rw [hadd] at h
      exact .inr (.inr ⟨setting, next, rfl, hhelp, hversion, hadd, h⟩)

/-- What the arguments of a command line ask for. -/
def Request.ofArguments (arguments : List Text) : Except UsageError Request := conclude {} (readSettings arguments)

def Options.targetOf (o : Options) : Target := ⟨o.target, o.qubits⟩

end CommandLine
end QuantumKernel
