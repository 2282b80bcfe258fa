import Mathlib.Data.List.Basic
import QuantumKernel.Proofs.Arguments
/-! # Verbosity — what the log shows makes no difference to anything else

Two command lines that differ in the flag for verbosity alone are read into settings that differ in it alone, so they come
to requests that do if both are accepted (`SameButVerbose.quiet_eq`).  A report keeps of the run's records those that its
filter admits, and nothing else in it depends on the filter (`report_eq`).  The filter is the environment's if that sets one.
-/
namespace QuantumKernel

namespace LogFilter

/-- How many levels a filter admits, the most severe first. -/
def reach : LogFilter → Nat
  | off => 0
  | upTo level => level.rank + 1

theorem admits_iff {f : LogFilter} {level : Level} : f.admits level = true ↔ level.rank < f.reach := by
  cases f with
  | off => simp [admits, reach]
  | upTo limit =>
    simp only [admits, reach, decide_eq_true_iff]
    omega

/-- **A stricter filter shows a subsequence.** -/
theorem select_sublist {f g : LogFilter} (h : f.reach ≤ g.reach) (log : List LogRecord) :
    (f.select log).Sublist (g.select log) := by
  refine List.monotone_filter_right log fun r hr => ?_
  rw [admits_iff] at hr ⊢
  omega

theorem select_trace (log : List LogRecord) : (upTo .trace).select log = log := by
  refine List.filter_eq_self.2 fun r _ => ?_
  rw [admits_iff]
  cases r.level <;> decide

end LogFilter

namespace CommandLine

/-! ## Command lines -/

/-- Command lines that differ at most in where they have the flag for verbosity: as an argument of its own in front of the
operands that follow two dashes, or among the letters after a dash, behind other flags only. -/
inductive SameButVerbose : List Text → List Text → Prop
  | nil : SameButVerbose [] []
  | operands (paths : List Text) : SameButVerbose ("--".toList :: paths) ("--".toList :: paths)
  | argument {a b : List Text} {argument : Text} : argument ≠ "--".toList → SameButVerbose a b →
      SameButVerbose (argument :: a) (argument :: b)
  | left {a b : List Text} {flag : Text} : flag = "-v".toList ∨ flag = "--verbose".toList → SameButVerbose a b →
      SameButVerbose (flag :: a) b
  | groupedLeft {a b : List Text} {flags letters : Text} : (∀ c ∈ flags, (Flag.ofLetter? c).isSome = true) →
      flags ++ letters ≠ [] → SameButVerbose (('-' :: (flags ++ letters)) :: a) b →
      SameButVerbose (('-' :: (flags ++ 'v' :: letters)) :: a) b
  | right {a b : List Text} {flag : Text} : flag = "-v".toList ∨ flag = "--verbose".toList → SameButVerbose a b →
      SameButVerbose a (flag :: b)
  | groupedRight {a b : List Text} {flags letters : Text} : (∀ c ∈ flags, (Flag.ofLetter? c).isSome = true) →
      flags ++ letters ≠ [] → SameButVerbose a (('-' :: (flags ++ letters)) :: b) →
      SameButVerbose a (('-' :: (flags ++ 'v' :: letters)) :: b)

def asksVerbose : Except UsageError Setting → Bool
  | .ok (.flag .verbose) => true
  | _ => false

/-- The settings other than the flag for verbosity. -/
def quietly (settings : List (Except UsageError Setting)) : List (Except UsageError Setting) :=
  settings.filter fun x => !asksVerbose x

def Draft.quiet (d : Draft) : Draft := { d with verbose := false }

/-- A request without what it says on verbosity. -/
def Request.quiet : Request → Request
  | run options => run { options with verbose := false }
  | request => request

theorem quietly_append (s t : List (Except UsageError Setting)) : quietly (s ++ t) = quietly s ++ quietly t :=
  List.filter_append ..

theorem quietly_cons_verbose (s : List (Except UsageError Setting)) :
    quietly (.ok (.flag .verbose) :: s) = quietly s := rfl

theorem quietly_cons {x : Except UsageError Setting} (h : asksVerbose x = false) (s : List (Except UsageError Setting)) :
    quietly (x :: s) = x :: quietly s := List.filter_cons_of_pos (by simp [h])

namespace Draft

@[simp] theorem lang_quiet (d : Draft) : d.quiet.lang = d.lang := rfl

@[simp] theorem target_quiet (d : Draft) : d.quiet.target = d.target := rfl

@[simp] theorem qubits_quiet (d : Draft) : d.quiet.qubits = d.qubits := rfl

@[simp] theorem list_quiet (d : Draft) : d.quiet.list = d.list := rfl

@[simp] theorem input_quiet (d : Draft) : d.quiet.input = d.input := rfl

theorem addValue_quiet (d : Draft) (text : Text) (key : Key) :
    d.quiet.addValue text key = (d.addValue text key).map quiet := by
  cases key with
  | lang =>
    simp only [addValue, lang_quiet, apply_ite (Except.map quiet)]
    rfl
  | target =>
    simp only [addValue, target_quiet, apply_ite (Except.map quiet)]
    rfl
  | qubits =>
    simp only [addValue, qubits_quiet, apply_ite (Except.map quiet)]
    cases countOf? text <;> rfl

theorem addOperand_quiet (d : Draft) (path : Text) : d.quiet.addOperand path = (d.addOperand path).map quiet := by
  simp only [addOperand, input_quiet, apply_ite (Except.map quiet)]
  rfl

/-- **What the other settings do does not depend on the flag for verbosity.** -/
theorem add_quiet (d : Draft) {setting : Setting} (h : setting ≠ .flag .verbose) :
    d.quiet.add setting = (d.add setting).map quiet := by
  cases setting with
  | value key text => exact d.addValue_quiet text key
  | operand path => exact d.addOperand_quiet path
  | flag flag =>
    cases flag with
    | verbose => exact absurd rfl h
    | help => rfl
    | version => rfl
    | list =>
      simp only [add, addFlag, list_quiet, apply_ite (Except.map quiet)]
      rfl

theorem quiet_of_add_verbose {d next : Draft} (h : d.add (.flag .verbose) = .ok next) : next.quiet = d.quiet := by
  simp only [add, addFlag] at h
  split at h
  · cases h
  · cases h
    rfl

end Draft

theorem conclude_quietly : ∀ {s : List (Except UsageError Setting)} {d : Draft} {request : Request},
    conclude d s = .ok request → conclude d.quiet (quietly s) = .ok request.quiet
  | [], d, request, h => by
    cases h
    rfl
  | x :: s, d, request, h => by
    rcases of_conclude_cons h with ⟨rfl, rfl⟩ | ⟨rfl, rfl⟩ | ⟨setting, next, rfl, hhelp, hversion, hadd, hrest⟩
    · rfl
    · rfl
    have ih := conclude_quietly hrest
    by_cases hverbose : setting = .flag .verbose
    · subst hverbose
      rwa [quietly_cons_verbose, ← Draft.quiet_of_add_verbose hadd]
    · have hkept : asksVerbose (.ok setting) = false := by
        unfold asksVerbose
        split
        · rename_i heq
          exact absurd (Except.ok.inj heq) hverbose
        · rfl
      rw [quietly_cons hkept, conclude_ok_cons _ hhelp hversion, d.add_quiet hverbose, hadd]
      exact ih

/-! ## Settings that conclude alike -/

/-- Settings that never come to two different requests. -/
def Agree (s t : List (Except UsageError Setting)) : Prop :=
  ∀ d p q, conclude d s = .ok p → conclude d t = .ok q → p = q

namespace Agree

theorem refl (s : List (Except UsageError Setting)) : Agree s s := fun _ _ _ hp hq => Except.ok.inj (hp.symm.trans hq)

theorem symm {s t : List (Except UsageError Setting)} (h : Agree s t) : Agree t s := fun d p q hp hq => (h d q p hq hp).symm

theorem of_error (e : UsageError) (s t : List (Except UsageError Setting)) : Agree (.error e :: s) t := by
  intro d p q hp
  rw [conclude] at hp
  cases hp

theorem cons {s t : List (Except UsageError Setting)} (h : Agree s t) (x : Except UsageError Setting) :
    Agree (x :: s) (x :: t) := by
  intro d p q hp hq
  rcases of_conclude_cons hp with ⟨rfl, rfl⟩ | ⟨rfl, rfl⟩ | ⟨setting, next, rfl, hhelp, hversion, hadd, hrest⟩
  · cases hq
    rfl
  · cases hq
    rfl
  · rw [conclude_ok_cons d hhelp hversion, hadd] at hq
    exact h next p q hrest hq

theorem append {s t : List (Except UsageError Setting)} (h : Agree s t) : ∀ first, Agree (first ++ s) (first ++ t)
  | [] => h
  | x :: first => (h.append first).cons x

end Agree

theorem readSettings_flag {flag : Text} (h : flag = "-v".toList ∨ flag = "--verbose".toList) (rest : List Text) :
    readSettings (flag :: rest) = .ok (.flag .verbose) :: readSettings rest ∧ mayFollow flag = false := by
  rcases h with rfl | rfl
  · exact ⟨readSettings_cons (by decide) rfl rest, rfl⟩
  · exact ⟨readSettings_cons (by decide) rfl rest, rfl⟩

theorem readValue_of_not_mayFollow {text : Text} (h : mayFollow text = false) (key : Key) (rest : List Text) :
    readValue key (text :: rest) = [.error (.missingValue key)] := by
  rw [readValue, h]
  rfl

theorem readArgument_letters {letters : Text} (hne : letters ≠ []) (h : letters.head? ≠ some '-') :
    readArgument ('-' :: letters) = readLetters letters := by
  obtain ⟨letter, letters, rfl⟩ := List.exists_cons_of_ne_nil hne
  unfold readArgument
  split
  · rename_i heq
    simp only [List.cons.injEq] at heq
    exact absurd (congrArg some heq.2.1) h
  · rename_i heq
    simp only [List.cons.injEq] at heq
    rw [heq.2.1, heq.2.2]
  · rename_i hletters
    exact absurd rfl (hletters letter letters)

theorem readSettings_letters {letters : Text} (hne : letters ≠ []) (h : letters.head? ≠ some '-') (rest : List Text) :
    readSettings (('-' :: letters) :: rest) =
      (readLetters letters).settings ++ readOthers (readLetters letters).waiting rest := by
  have hdashes : '-' :: letters ≠ "--".toList := by
    intro heq
    cases heq
    exact h rfl
  exact readSettings_cons hdashes (readArgument_letters hne h) rest

theorem readLetters_append {flags : Text} (h : ∀ c ∈ flags, (Flag.ofLetter? c).isSome = true) : ∃ settings, ∀ letters,
    readLetters (flags ++ letters) = ⟨settings ++ (readLetters letters).settings, (readLetters letters).waiting⟩ := by
  induction flags with
  | nil => exact ⟨[], fun _ => rfl⟩
  | cons c flags ih =>
    obtain ⟨settings, hsettings⟩ := ih fun c hc => h c (List.mem_cons_of_mem _ hc)
    obtain ⟨flag, hflag⟩ := Option.isSome_iff_exists.1 (h c (List.mem_cons_self ..))
    refine ⟨.ok (.flag flag) :: settings, fun letters => ?_⟩
    rw [List.cons_append, readLetters]
    simp only [hflag, hsettings, List.cons_append]

/-- The letter behind flags adds its setting, or else stands in front of a fault: a dash is no letter. -/
theorem readSettings_grouped {flags letters : Text} (hflags : ∀ c ∈ flags, (Flag.ofLetter? c).isSome = true)
    (hne : flags ++ letters ≠ []) (rest : List Text) :
    (∃ e s, readSettings (('-' :: (flags ++ 'v' :: letters)) :: rest) = .ok (.flag .verbose) :: .error e :: s) ∨
      ∃ s t, readSettings (('-' :: (flags ++ 'v' :: letters)) :: rest) = s ++ .ok (.flag .verbose) :: t ∧
        readSettings (('-' :: (flags ++ letters)) :: rest) = s ++ t := by
  have hhead : ∀ others, (flags ++ others).head? = some '-' → flags = [] ∧ others.head? = some '-' := by
    intro others h
    cases flags with
    | nil => exact ⟨rfl, h⟩
    | cons c flags =>
      cases h
      cases hflags '-' (List.mem_cons_self ..)
  have hgrouped : (flags ++ 'v' :: letters).head? ≠ some '-' := fun h => absurd (hhead _ h).2 (by simp)
  by_cases hdash : (flags ++ letters).head? = some '-'
  · obtain ⟨rfl, hletters⟩ := hhead _ hdash
    obtain ⟨others, rfl⟩ := List.head?_eq_some_iff.1 hletters
    exact .inl ⟨_, _, readSettings_cons (by simp) rfl rest⟩
  · obtain ⟨settings, hsettings⟩ := readLetters_append hflags
    have hverbose : readLetters ('v' :: letters) =
        ⟨.ok (.flag .verbose) :: (readLetters letters).settings, (readLetters letters).waiting⟩ := rfl
    refine .inr ⟨settings, (readLetters letters).settings ++ readOthers (readLetters letters).waiting rest, ?_, ?_⟩
    · rw [readSettings_letters (by simp) hgrouped, hsettings, hverbose, List.append_assoc, List.cons_append]
    · rw [readSettings_letters hne hdash, hsettings, List.append_assoc]

theorem agree_grouped {flags letters : Text} (hflags : ∀ c ∈ flags, (Flag.ofLetter? c).isSome = true)
    (hne : flags ++ letters ≠ []) {rest : List Text} {t : List (Except UsageError Setting)}
    (hagree : Agree (quietly (readSettings (('-' :: (flags ++ letters)) :: rest))) t) :
    Agree (quietly (readSettings (('-' :: (flags ++ 'v' :: letters)) :: rest))) t := by
  rcases readSettings_grouped hflags hne rest with ⟨e, s, hread⟩ | ⟨s, s', hread, hread'⟩
  · rw [hread, quietly_cons_verbose]
    exact .of_error _ _ _
  · rwa [hread, quietly_append, quietly_cons_verbose, ← quietly_append, ← hread']

theorem agree_readValue {argument : Text} (h : mayFollow argument = false) (key : Key) (rest : List Text)
    (t : List (Except UsageError Setting)) : Agree (quietly (readValue key (argument :: rest))) t := by
  rw [readValue_of_not_mayFollow h]
  exact .of_error _ _ _

theorem not_mayFollow_grouped (flags letters : Text) : mayFollow ('-' :: (flags ++ 'v' :: letters)) = false := by
  cases flags <;> rfl

/-- **Command lines that differ in the flag for verbosity come to settings that agree**, also where the next argument is to
be a value. -/
theorem SameButVerbose.agree {a b : List Text} (h : SameButVerbose a b) :
    Agree (quietly (readSettings a)) (quietly (readSettings b)) ∧
      ∀ key, Agree (quietly (readValue key a)) (quietly (readValue key b)) := by
  induction h with
  | nil => exact ⟨.refl _, fun _ => .refl _⟩
  | operands paths => exact ⟨.refl _, fun _ => .refl _⟩
  | @argument a b argument hargument _ ih =>
    obtain ⟨hsettings, hvalue⟩ := ih
    constructor
    · cases hread : readArgument argument with
      | mk settings waiting =>
        rw [readSettings_cons hargument hread, readSettings_cons hargument hread, quietly_append, quietly_append]
        cases waiting with
        | none => exact hsettings.append _
        | some key => exact (hvalue key).append _
    · intro key
      rw [readValue, readValue]
      split
      · rw [quietly_cons rfl, quietly_cons rfl]
        exact hsettings.cons _
      · exact .refl _
  | left hflag _ ih =>
    obtain ⟨hread, hfollow⟩ := readSettings_flag hflag _
    rw [hread, quietly_cons_verbose]
    exact ⟨ih.1, fun key => agree_readValue hfollow key _ _⟩
  | right hflag _ ih =>
    obtain ⟨hread, hfollow⟩ := readSettings_flag hflag _
    rw [hread, quietly_cons_verbose]
    exact ⟨ih.1, fun key => (agree_readValue hfollow key _ _).symm⟩
  | groupedLeft hflags hne _ ih =>
    exact ⟨agree_grouped hflags hne ih.1, fun key => agree_readValue (not_mayFollow_grouped _ _) key _ _⟩
  | groupedRight hflags hne _ ih =>
    exact ⟨(agree_grouped hflags hne ih.1.symm).symm, fun key => (agree_readValue (not_mayFollow_grouped _ _) key _ _).symm⟩

theorem SameButVerbose.quiet_eq {a b : List Text} (h : SameButVerbose a b) {p q : Request}
    (hp : Request.ofArguments a = .ok p) (hq : Request.ofArguments b = .ok q) : p.quiet = q.quiet :=
  h.agree.1 _ _ _ (conclude_quietly hp) (conclude_quietly hq)

/-! ## Reports -/

namespace Request

def verbose : Request → Bool
  | run options => options.verbose
  | _ => false

/-- The filter that decides what is shown: the environment's, or else debug and worse if verbose, and warn and worse. -/
def filter (request : Request) : Option LogFilter → LogFilter
  | some asked => asked
  | none => .upTo (if request.verbose then .debug else .warn)

/-- All the records of what a request leads to, shown or not. -/
def records (read : Option Text → Except ReadError ByteArray) : Request → List LogRecord
  | run options =>
    if options.list then []
    else match decoded (read options.input) with
      | .error _ => []
      | .ok source => (options.compile source).log
  | _ => []

variable (read : Option Text → Except ReadError ByteArray)

theorem report_quiet (request : Request) (asked : LogFilter) :
    request.quiet.report read (some asked) = request.report read (some asked) := by
  cases request <;> rfl

theorem records_quiet (request : Request) : request.quiet.records read = request.records read := by
  cases request <;> rfl

/-- **A report keeps of all records those that its filter admits**, and nothing else in it depends on the filter. -/
theorem report_eq (request : Request) (setting : Option LogFilter) : request.report read setting =
    { request.report read (some (.upTo .trace)) with log := (request.filter setting).select (request.records read) } := by
  cases request with
  | help => simp only [report, records, Report.printed, LogFilter.select_nil]
  | version => simp only [report, records, Report.printed, LogFilter.select_nil]
  | run options =>
    have hfilter : options.filter setting = (run options).filter setting := by cases setting <;> rfl
    simp only [report, records, Options.report]
    split
    · simp only [Report.printed, LogFilter.select_nil]
    · cases decoded (read options.input) with
      | error e => rfl
      | ok source =>
        simp only [Options.reportOf, hfilter]
        split <;> rfl

/-- **With everything shown a report has all the records.** -/
theorem log_report_trace (request : Request) :
    (request.report read (some (.upTo .trace))).log = request.records read := by
  rw [report_eq]
  exact LogFilter.select_trace _

end Request

/-- **Verbosity is observation only.**  Two command lines that differ in the flag for it alone, under any two settings of
the environment, exit alike and print the same; after the records that each shows comes the same error.  Both show, of the
same records, those that their filter admits, in order, so the stricter of the two shows a subsequence.  Where the environment
sets the filter, the flag has no effect. -/
theorem verbosity_is_observation {a b : List Text} {p q : Request} (h : SameButVerbose a b)
    (hp : Request.ofArguments a = .ok p) (hq : Request.ofArguments b = .ok q)
    (read : Option Text → Except ReadError ByteArray) (s t : Option LogFilter) :
    ∃ r r' error, invoke a read s = .ok r ∧ invoke b read t = .ok r' ∧
      q.records read = p.records read ∧ (p.report read (some (.upTo .trace))).log = p.records read ∧
      r.exit = r'.exit ∧ r.stdout = r'.stdout ∧
      r.stderr = ((p.filter s).select (p.records read)).flatMap LogRecord.line ++ error ∧
      r'.stderr = ((q.filter t).select (p.records read)).flatMap LogRecord.line ++ error ∧
      ((p.filter s).reach ≤ (q.filter t).reach →
        ((p.filter s).select (p.records read)).Sublist ((q.filter t).select (p.records read))) ∧
      (s = t → s ≠ none → r = r') := by
  have hquiet := h.quiet_eq hp hq
  have hfull : p.report read (some (.upTo .trace)) = q.report read (some (.upTo .trace)) := by
    rw [← p.report_quiet, hquiet, q.report_quiet]
  have hrecords : q.records read = p.records read := by rw [← p.records_quiet, hquiet, q.records_quiet]
  have ha : invoke a read s = .ok (p.report read s) := by
    rw [invoke, hp]
    rfl
  have hb : invoke b read t = .ok (q.report read t) := by
    rw [invoke, hq]
    rfl
  refine ⟨p.report read s, q.report read t, (p.report read (some (.upTo .trace))).complaint, ha, hb, hrecords,
    p.log_report_trace read, ?_, ?_, ?_, ?_, fun hreach => LogFilter.select_sublist hreach _, ?_⟩
  · rw [p.report_eq, q.report_eq, hfull]
  · rw [p.report_eq, q.report_eq, hfull]
  · rw [p.report_eq]
    rfl
  · rw [q.report_eq, hfull, hrecords]
    rfl
  · rintro rfl hset
    obtain ⟨asked, rfl⟩ := Option.ne_none_iff_exists'.1 hset
    rw [← p.report_quiet, hquiet, q.report_quiet]

theorem verbosity_is_observation_broken :
    let a := ["-vl", "broken", "--", "-v"].map String.toList
    let b := ["-l", "broken", "--", "-v"].map String.toList
    let p := Request.run { lang := "broken".toList, verbose := true, input := some "-v".toList }
    let q := Request.run { lang := "broken".toList, input := some "-v".toList }
    let read : Option Text → Except ReadError ByteArray := fun _ => .ok (Text.utf8 "é".toList).toByteArray
    SameButVerbose a b ∧ Request.ofArguments a = .ok p ∧ Request.ofArguments b = .ok q ∧ ∃ r r',
      invoke a read none = .ok r ∧ invoke b read (some (.upTo .error)) = .ok r' ∧ r.exit = r'.exit ∧
      r.stdout = r'.stdout := by
  intro a b p q read
  have hsame : SameButVerbose a b :=
    @SameButVerbose.groupedLeft _ _ [] ['l'] (List.forall_mem_nil _) (List.cons_ne_nil _ _) <|
      .argument (by decide) <| .argument (by decide) <| .operands _
  have hdashes : Spells { input := some "-v".toList } ["--".toList, "-v".toList] := .dashes (by decide)
  have ha : Spells { lang := some "broken".toList, verbose := true, input := some "-v".toList } a :=
    .grouped (.lang _ rfl) (.verbose rfl) (.separate .lang (by decide)) hdashes
  have hb : Spells { lang := some "broken".toList, input := some "-v".toList } b :=
    .part (.lang _ rfl) (.short (.separate .lang (by decide))) hdashes
  have hp : Request.ofArguments a = .ok p := ha.ofArguments
  have hq : Request.ofArguments b = .ok q := hb.ofArguments
  obtain ⟨r, r', _, hr, hr', -, -, hexit, hstdout, -⟩ :=
    verbosity_is_observation hsame hp hq read none (some (.upTo .error))
  exact ⟨hsame, hp, hq, r, r', hr, hr', hexit, hstdout⟩

end CommandLine
end QuantumKernel
