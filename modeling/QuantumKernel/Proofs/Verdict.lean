import QuantumKernel.Proofs.Arguments
import QuantumKernel.Proofs.Latest
import QuantumKernel.Proofs.Outcome
/-! # Verdict — the command line reports what the library decides

The library decides on a source by looking a front-end up and letting it compile (`Decides`); with the front-ends that come
with the program, that is the verdict of the language that the name stands for (`Decides.verdict`).  A report of it has the
same content, split between what is printed, the error and the exit status (`Report.Tells`).  What cannot be read is
reported before anything is looked up.
-/
namespace QuantumKernel

/-- **No outcome of a kernel is a defect.** -/
theorem Frontend.Outcome.isDefect_eq_false {source : Text} {target : Target} {e : CompileError}
    (h : Outcome source target (.error e)) : e.isDefect = false := by
  cases h <;> rfl

theorem CompileError.isDefect_iff {e : CompileError} :
    e.isDefect = true ↔ ∃ frontend reason, e = .defect frontend reason := by
  cases e <;> simp [isDefect]

namespace Registry

variable {lang source : Text} {target : Target} {result : Except CompileError Ir} {log : List LogRecord}

/-! ## What the library decides -/

/-- The result of a source in a language, and all records on the way: there is no front-end of that name, or the one that
there is compiles the source. -/
inductive Decides (lang source : Text) (target : Target) : Except CompileError Ir → List LogRecord → Prop
  | unresolved {e : CompileError} {log : List LogRecord} :
      (withBuiltins : Registry Unit).resolve lang () = ⟨(.error e, ()), log⟩ → Decides lang source target (.error e) log
  | compiled {c after : Compiler} {result : Except CompileError Ir} {first next : List LogRecord} :
      (withBuiltins : Registry Unit).resolve lang () = ⟨(.ok c, ()), first⟩ →
      c.compile source target = ⟨(result, after), next⟩ → Decides lang source target result (first ++ next)

theorem decides_iff :
    Decides lang source target result log ↔ withBuiltins.compileAs lang source target () = ⟨result, log⟩ := by
  constructor
  · intro h
    cases h with
    | unresolved hresolve =>
      rw [compileAs, hresolve]
    | compiled hresolve hcompile =>
      rw [compileAs, hresolve]
      simp only [hcompile]
  · intro h
    rw [compileAs] at h
    split at h
    · rename_i e hvalue
      obtain ⟨rfl, rfl⟩ := Logged.mk.inj h
      exact .unresolved (Logged.ext (Prod.ext hvalue rfl) rfl)
    · rename_i c hvalue
      obtain ⟨rfl, rfl⟩ := Logged.mk.inj h
      exact .compiled (Logged.ext (Prod.ext hvalue rfl) rfl) rfl

/-- What comes of a source in each of the languages there are, and in any other. -/
inductive Verdict (lang source : Text) (target : Target) : Except CompileError Ir → Prop
  | toy : lang = "toy".toList → Verdict lang source target (.ok (.text ⟨Text.uppercase source⟩))
  | toy2 : lang = "toy2".toList → Verdict lang source target (.ok (.text ⟨Frontend.bracket source⟩))
  | broken : lang = "broken".toList → Verdict lang source target (.error (.missingTranslate "broken".toList))
  | gates {r : Except CompileError Program} : lang = "gates".toList → Frontend.Outcome source target r →
      Verdict lang source target (r.map Ir.gates)
  | unknown : lang ∉ ["broken", "gates", "toy", "toy2"].map String.toList →
      Verdict lang source target (.error (.notFound lang (["broken", "gates", "toy", "toy2"].map String.toList)))

theorem factory?_withBuiltins (name : Text) :
    (withBuiltins : Registry ω).factory? name = (latest builtins name).map Factory.of :=
  (Start.builtins.factory?_registry name).trans (latest_map Factory.of builtins name)

theorem names_withBuiltins :
    (withBuiltins : Registry ω).names = ["broken", "gates", "toy", "toy2"].map String.toList := by rfl

theorem verdict_compileAs (lang source : Text) (target : Target) :
    Verdict lang source target (withBuiltins.compileAs lang source target ()).value := by
  have hfactory := factory?_withBuiltins (ω := Unit) lang
  cases hlatest : latest builtins lang with
  | none =>
    rw [hlatest, Option.map_none] at hfactory
    have hname : lang ∉ (withBuiltins : Registry Unit).names := by
      rw [mem_names_iff, hfactory]
      exact Bool.false_ne_true
    rw [names_withBuiltins] at hname
    rw [compileAs, resolve_of_none hfactory, names_withBuiltins]
    exact .unknown hname
  | some c =>
    rw [hlatest, Option.map_some] at hfactory
    rw [compileAs, resolve_of_some hfactory]
    -- which of the registrations it is decides both the name and the compiler
    have hmem := mem_of_latest hlatest
    simp only [builtins, List.mem_cons, Prod.mk.injEq, List.not_mem_nil, or_false] at hmem
    rcases hmem with ⟨rfl, rfl⟩ | ⟨rfl, rfl⟩ | ⟨rfl, rfl⟩ | ⟨rfl, rfl⟩
    · exact .toy rfl
    · exact .toy2 rfl
    · exact .broken rfl
    · exact .gates rfl (Frontend.outcome_result source target)

/-- **With the front-ends that come with the program a decision is the verdict of its language.** -/
theorem Decides.verdict (h : Decides lang source target result log) : Verdict lang source target result := by
  have hverdict := verdict_compileAs lang source target
  rwa [decides_iff.1 h] at hverdict

namespace Verdict

theorem exists_ok (h : Verdict lang source target result) (hlang : lang = "toy".toList ∨ lang = "toy2".toList) :
    ∃ ir, result = .ok ir := by
  rcases hlang with rfl | rfl
  · cases h with
    | toy => exact ⟨_, rfl⟩
    | unknown hunknown => simp at hunknown
    | _ hname => cases hname
  · cases h with
    | toy2 => exact ⟨_, rfl⟩
    | unknown hunknown => simp at hunknown
    | _ hname => cases hname

theorem eq_notFound (h : Verdict lang source target result)
    (hlang : lang ∉ ["broken", "gates", "toy", "toy2"].map String.toList) :
    result = .error (.notFound lang (["broken", "gates", "toy", "toy2"].map String.toList)) := by
  cases h with
  | unknown => rfl
  | _ hname => subst hname; simp at hlang

/-- **Only the unfinished front-end is defective.** -/
theorem defect_iff (h : Verdict lang source target result) :
    (∃ frontend reason, result = .error (.defect frontend reason)) ↔ lang = "broken".toList := by
  constructor
  · rintro ⟨frontend, reason, hresult⟩
    cases h with
    | toy => cases hresult
    | toy2 => cases hresult
    | broken hname => exact hname
    | @gates r _ houtcome =>
      cases r with
      | ok p => cases hresult
      | error e =>
        -- every fault of a kernel lies with the caller
        obtain rfl := Except.error.inj hresult
        cases houtcome.isDefect_eq_false
    | unknown => cases hresult
  · rintro rfl
    cases h with
    | toy hname => cases hname
    | toy2 hname => cases hname
    | broken => exact ⟨_, _, rfl⟩
    | gates hname => cases hname
    | unknown hunknown => simp at hunknown

end Verdict
end Registry

namespace CommandLine

/-! ## Reports -/

/-- A report that has the content of a result, on standard output or as the error after the records that are shown, and in
the exit status. -/
structure Report.Tells (report : Report) (result : Except CompileError Ir) (shown : List LogRecord) : Prop where
  log : report.log = shown
  exit_zero : report.exit = 0 ↔ ∃ ir, result = .ok ir
  exit_two : report.exit = 2 ↔ ∃ frontend reason, result = .error (.defect frontend reason)
  exit_one : report.exit = 1 ↔ ∃ e, result = .error e ∧ ¬ ∃ frontend reason, e = .defect frontend reason
  ok : ∀ ir, result = .ok ir →
    report.stdout = ir.toText ++ ['\n'] ∧ report.stderr = shown.flatMap LogRecord.line
  error : ∀ e, result = .error e →
    report.stdout = [] ∧ report.stderr = shown.flatMap LogRecord.line ++ ("Error: ".toList ++ e.message ++ ['\n'])

theorem Options.tells_reportOf (o : Options) (setting : Option LogFilter) (compiled : Logged (Except CompileError Ir)) :
    (o.reportOf setting compiled).Tells compiled.value ((o.filter setting).select compiled.log) := by
  obtain ⟨result, log⟩ := compiled
  cases result with
  | ok ir =>
    have hexit : (o.reportOf setting ⟨.ok ir, log⟩).exit = 0 := rfl
    constructor
    · rfl
    · simp [hexit]
    · simp [hexit]
    · simp [hexit]
    · rintro _ ⟨⟩
      exact ⟨rfl, List.append_nil _⟩
    · rintro _ ⟨⟩
  | error e =>
    have hexit : (o.reportOf setting ⟨.error e, log⟩).exit = if e.isDefect then 2 else 1 := rfl
    constructor
    · rfl
    · rw [hexit]
      split <;> simp
    · rw [hexit]
      simp only [Except.error.injEq, ← e.isDefect_iff]
      split <;> simp [*]
    · rw [hexit]
      simp only [Except.error.injEq, exists_eq_left', ← e.isDefect_iff]
      split <;> simp [*]
    · rintro _ ⟨⟩
    · rintro _ ⟨⟩
      exact ⟨rfl, rfl⟩

namespace Options

variable {o : Options} {content : Except ReadError ByteArray}

theorem report_of_unreadable (hlist : o.list = false) (h : ¬ ∃ source : Text, content = .ok source.utf8.toByteArray)
    (setting : Option LogFilter) : ∃ e, (content = .error e ∨ e = .notUtf8 ∧ ∃ bytes, content = .ok bytes) ∧
      o.report content setting = ⟨1, [], [], errorLine e.message⟩ := by
  cases hdecoded : decoded content with
  | ok source => exact absurd ⟨source, decoded_eq_ok_iff.1 hdecoded⟩ h
  | error e =>
    refine ⟨e, of_decoded_eq_error hdecoded, ?_⟩
    rw [report, hlist, hdecoded]
    rfl

theorem report_of_readable (hlist : o.list = false) {source : Text} (h : content = .ok source.utf8.toByteArray)
    (setting : Option LogFilter) : o.report content setting = o.reportOf setting (o.compile source) := by
  rw [report, hlist, decoded_eq_ok_iff.2 h]
  rfl

end Options

/-- **The command line reports what the library decides.**  A source that cannot be read is reported as such, in any
language and without a record.  Any other is reported as what the library decides on it for the target that the options
name: a result is printed, an error ends the log and makes the exit status.  Only `broken` exits as a defect; `toy` and
`toy2` always succeed; a language that there is none of is not found. -/
theorem invoke_reports_decision {arguments : List Text} {o : Options}
    (harguments : Request.ofArguments arguments = .ok (.run o)) (hlist : o.list = false)
    (read : Option Text → Except ReadError ByteArray) (setting : Option LogFilter) :
    ∃ report, invoke arguments read setting = .ok report ∧
      ((¬ ∃ source : Text, read o.input = .ok source.utf8.toByteArray) →
        report.exit = 1 ∧ report.stdout = [] ∧ report.log = [] ∧
        ∃ e, (read o.input = .error e ∨ e = .notUtf8 ∧ ∃ bytes, read o.input = .ok bytes) ∧
          report.stderr = "Error: ".toList ++ e.message ++ ['\n']) ∧
      ∀ source : Text, read o.input = .ok source.utf8.toByteArray → ∃ result log,
        (∀ result' log', Registry.Decides o.lang source ⟨o.target, o.qubits⟩ result' log' ↔ result' = result ∧ log' = log) ∧
        report.Tells result ((o.filter setting).select log) ∧
        (report.exit = 2 ↔ o.lang = "broken".toList) ∧
        (o.lang = "toy".toList ∨ o.lang = "toy2".toList → report.exit = 0) ∧
        (o.lang ∉ ["broken", "gates", "toy", "toy2"].map String.toList → report.exit = 1 ∧
          result = .error (.notFound o.lang (["broken", "gates", "toy", "toy2"].map String.toList))) := by
  have hinvoke : invoke arguments read setting = .ok (o.report (read o.input) setting) := by
    rw [invoke, harguments]
    rfl
  refine ⟨_, hinvoke, fun hunreadable => ?_, fun source hsource => ?_⟩
  · obtain ⟨e, he, hreport⟩ := Options.report_of_unreadable hlist hunreadable setting
    rw [hreport]
    exact ⟨rfl, rfl, rfl, e, he, rfl⟩
  · have hdecides : ∀ result log, Registry.Decides o.lang source ⟨o.target, o.qubits⟩ result log ↔
        result = (o.compile source).value ∧ log = (o.compile source).log := by
      intro result log
      rw [Registry.decides_iff]
      exact ⟨fun h => ⟨(congrArg Logged.value h).symm, (congrArg Logged.log h).symm⟩,
        fun h => Logged.ext h.1.symm h.2.symm⟩
    have hverdict := ((hdecides _ _).2 ⟨rfl, rfl⟩).verdict
    have htells := o.tells_reportOf setting (o.compile source)
    rw [Options.report_of_readable hlist hsource]
    refine ⟨_, _, hdecides, htells, htells.exit_two.trans hverdict.defect_iff,
      fun hlang => htells.exit_zero.2 (hverdict.exists_ok hlang), fun hlang => ?_⟩
    have hresult := hverdict.eq_notFound hlang
    refine ⟨htells.exit_one.2 ⟨_, hresult, ?_⟩, hresult⟩
    rintro ⟨_, _, hdefect⟩
    cases hdefect

theorem invoke_reports_decision_broken :
    let arguments := ["--qubits=+03", "-lbroken"].map String.toList
    let o : Options := { lang := "broken".toList, qubits := some 3 }
    let read : Option Text → Except ReadError ByteArray := fun _ => .ok (Text.utf8 "é".toList).toByteArray
    Request.ofArguments arguments = .ok (.run o) ∧ o.list = false ∧ ∃ report, invoke arguments read none = .ok report ∧
      report.exit = 2 ∧ report.stdout = [] := by
  intro arguments o read
  have hspells : Spells { lang := some "broken".toList, qubits := some 3 } arguments :=
    .part (.qubits rfl (.signed 1)) .equals <| .part (.lang _ rfl) (.short (.direct .lang (by decide) (by decide))) .nothing
  have harguments : Request.ofArguments arguments = .ok (.run o) := hspells.ofArguments
  obtain ⟨report, hinvoke, -, hreadable⟩ := invoke_reports_decision harguments rfl read none
  have hread : read o.input = .ok (Text.utf8 "é".toList).toByteArray := rfl
  obtain ⟨result, log, -, htells, hexit, -⟩ := hreadable _ hread
  have htwo := hexit.2 rfl
  obtain ⟨_, _, hresult⟩ := htells.exit_two.1 htwo
  exact ⟨harguments, rfl, report, hinvoke, htwo, (htells.error _ hresult).1⟩

end CommandLine
end QuantumKernel
