import QuantumKernel.Proofs.Account
import QuantumKernel.Proofs.FirstFault
import QuantumKernel.Proofs.Verdict
/-! # Verbatim — what of its records a report prints

Whatever the source is, a report prints its records without anything that a terminal would obey (`Report.shown_printed`).  A
compilation's records are made of the source, the target's name and the program's own words, so where the first two are shown
no record loses a character on the way (`stderr_of_shown`).
-/
namespace QuantumKernel

open Text (Shown)

/-! ## Parts of a text -/

namespace Text

theorem isShown_of_isDigit {c : Char} (h : c.isDigit = true) : isShown c = true := by
  have hspace : 0x20 ≤ c.toNat := Nat.le_trans (by decide) (Char.isDigit_iff_toNat.1 h).1
  have hdelete : c ≠ '\x7f' := by
    rintro rfl
    exact absurd h (by decide)
  simp only [isShown, Bool.or_eq_true, Bool.and_eq_true, decide_eq_true_iff, bne_iff_ne]
  exact Or.inl ⟨hspace, hdelete⟩

@[simp] theorem shown_decimal (n : Nat) : Shown (decimal n) := fun _ h => isShown_of_isDigit (isDigit_of_mem_decimal h)

theorem Shown.of_mem_pieces {t w : Text} (h : Shown t) (hw : w ∈ pieces t) : Shown w :=
  h.of_subset (subset_of_mem_splitWhere hw)

theorem Shown.of_mem_lines {t l : Text} (h : Shown t) (hl : l ∈ lines t) : Shown l := by
  intro c hc
  obtain ⟨w, hw, hcw⟩ := mem_of_mem_linesOfPieces hl hc
  exact h.of_mem_pieces hw c hcw

theorem shown_unlines : ∀ {ls : List Text}, (∀ l ∈ ls, Shown l) → Shown (unlines ls)
  | [], _ => by decide
  | [l], h => by
    rw [unlines_singleton]
    exact h l (List.mem_cons_self ..)
  | l :: m :: ls, h => by
    have hrest : Shown (unlines (m :: ls)) := shown_unlines fun k hk => h k (List.mem_cons_of_mem _ hk)
    have hfeed : Shown ['\n'] := by decide
    rw [unlines_cons_cons, ← List.singleton_append, shown_append, shown_append]
    exact ⟨h l (List.mem_cons_self ..), hfeed, hrest⟩

end Text

theorem Kernel.shown_cleanLine {line : Text} (h : Shown line) : Shown (cleanLine line) :=
  h.of_subset fun _ => mem_of_mem_cleanLine

theorem Kernel.shown_clean {source : Text} (h : Shown source) : Shown (clean source) := by
  refine Text.shown_unlines fun l hl => ?_
  obtain ⟨line, hline, rfl⟩ := List.mem_map.1 hl
  exact shown_cleanLine (h.of_mem_lines hline)

theorem Gate.shown_mnemonic (g : Gate) : Shown g.mnemonic := by cases g <;> decide

/-! ## Errors -/

namespace Grammar

theorem TokensOf.shown {line : Text} {words : List Text} (h : TokensOf line words) (hline : Shown line) :
    ∀ word ∈ words, Shown word := by
  intro word hword
  rw [tokensOf_iff.1 h] at hword
  exact hline.of_subset (Text.subset_of_mem_splitWhere (List.mem_of_mem_filter hword))

/-- The reason to reject a line is made of its tokens, numbers and the program's own words. -/
theorem FirstFault.shown {line reason : Text} (h : FirstFault line reason) (hline : Shown line) : Shown reason := by
  cases h with
  | @gate words htokens _ =>
    have hname : Shown (words.headD []) := by
      cases words with
      | nil => decide
      | cons name _ => exact htokens.shown hline name (List.mem_cons_self ..)
    simp only [Text.shown_append, hname]
    decide
  | @operand _ operand _ _ _ _ _ htokens _ _ hfault =>
    have hoperand : Shown operand := htokens.shown hline operand (by simp)
    cases hfault with
    | invalid =>
      simp only [Text.shown_append, hoperand]
      decide
    | repeated =>
      simp only [Text.shown_append, Text.shown_decimal]
      decide
  | count =>
    simp only [Text.shown_append, Text.shown_decimal, Gate.shown_mnemonic]
    decide

end Grammar

theorem CompileError.shown_place (line : Option Nat) : Shown (place line) := by
  unfold place
  cases line with
  | none => decide
  | some n =>
    simp only [Text.shown_append, Text.shown_decimal]
    decide

theorem CompileError.shown_message_compilation {frontend fragment reason : Text} (hfrontend : Shown frontend)
    (hfragment : Shown fragment) (hreason : Shown reason) (line : Option Nat) :
    Shown (CompileError.compilation frontend fragment line reason).message := by
  unfold message
  simp only [Text.shown_append, hfrontend, hfragment, hreason, shown_place]
  decide

theorem Frontend.Outcome.shown_message {source : Text} {target : Target} {e : CompileError}
    (h : Outcome source target (.error e)) (hsource : Shown source) (htarget : Shown target.name) : Shown e.message := by
  have hname : Shown GateList.name := by decide
  cases h with
  | @badLine number fragment fault hbad hfault =>
    obtain ⟨before, line, after, hpieces, -, hclean, -⟩ := hbad
    obtain rfl := Grammar.cleanForm_iff.1 hclean
    have hline : Shown line := hsource.of_mem_pieces (by rw [hpieces]; simp)
    have hfragment := Kernel.shown_cleanLine hline
    have hreason := (Instruction.firstFault_iff.2 ⟨fault, hfault, rfl⟩).shown hfragment
    exact CompileError.shown_message_compilation hname hfragment hreason _
  | blank => exact CompileError.shown_message_compilation hname (by decide) (by decide) none
  | tooManyQubits =>
    unfold Rejection.toError CompileError.message
    simp only [Text.shown_append, Text.shown_decimal, hname, htarget]
    decide

/-! ## Records -/

namespace Pipeline

variable {σ α : Type}

theorem shown_account {p : Pipeline σ α} {source : Text} {target : Target} {accepted : List LogRecord}
    (hname : ∀ state, Shown (p.frontend.name state)) (htarget : Shown target.name)
    (hstaged : Shown (p.staged source target).2.source) (haccepted : ∀ r ∈ accepted, r.Shown)
    (herror : ∀ e, p.result source target = .error e → Shown e.message) :
    ∀ r ∈ p.account source target accepted, r.Shown := by
  have horigin : Shown origin := by decide
  simp only [account, List.forall_mem_append, List.forall_mem_singleton]
  refine ⟨⟨⟨⟨horigin, ?_⟩, ?_⟩, haccepted⟩, ?_⟩
  · simp only [name, Text.shown_append, hname, htarget, Text.shown_decimal]
    decide
  · split
    · exact List.forall_mem_nil _
    · refine List.forall_mem_singleton.2 ⟨horigin, ?_⟩
      simp only [Text.shown_append, hname, hstaged]
      decide
  · split
    · refine List.forall_mem_singleton.2 ⟨horigin, ?_⟩
      simp only [Text.shown_append, hname]
      decide
    · rename_i e he
      exact List.forall_mem_singleton.2 ⟨horigin, herror e he⟩

end Pipeline

theorem Compiler.Quiet.shown_log_run {c : Compiler} (h : c.Quiet) {source : Text} {target : Target}
    (hname : ∀ state, Shown (c.pipeline.frontend.name state)) (htarget : Shown target.name)
    (hstaged : Shown (c.pipeline.staged source target).2.source)
    (herror : ∀ e, c.pipeline.result source target = .error e → Shown e.message) :
    ∀ r ∈ (c.pipeline.run source target).log, r.Shown := by
  rw [h.log_run]
  exact Pipeline.shown_account hname htarget hstaged (List.forall_mem_nil _) herror

namespace Frontend

variable {source : Text} {target : Target}

theorem GateList.shown_accepted (result : Except CompileError Program) : ∀ r ∈ accepted result, r.Shown := by
  cases result with
  | error e => exact List.forall_mem_nil _
  | ok p =>
    have horigin : Shown origin := by decide
    refine List.forall_mem_singleton.2 ⟨horigin, ?_⟩
    simp only [Text.shown_append, Text.shown_decimal]
    decide

theorem shown_log_run_gateList (hsource : Shown source) (htarget : Shown target.name) :
    ∀ r ∈ (gateList.pipeline.run source target).log, r.Shown := by
  rw [log_run_gateList]
  refine Pipeline.shown_account (fun _ => ?_) htarget (Kernel.shown_clean hsource) (GateList.shown_accepted _) ?_
  · exact (by decide : Shown GateList.name)
  · intro e he
    exact (result_eq_iff.1 he).shown_message hsource htarget

end Frontend

namespace Registry

variable {source : Text} {target : Target}

theorem shown_log_run {lang : Text} {c : Compiler} (h : (lang, c) ∈ builtins) (hsource : Shown source)
    (htarget : Shown target.name) : ∀ r ∈ (c.pipeline.run source target).log, r.Shown := by
  simp only [builtins, List.mem_cons, Prod.mk.injEq, List.not_mem_nil, or_false] at h
  -- the first two never fail, and the third always for the same reason
  rcases h with ⟨-, rfl⟩ | ⟨-, rfl⟩ | ⟨-, rfl⟩ | ⟨-, rfl⟩
  · refine Compiler.Quiet.shown_log_run (fun _ _ => ⟨rfl, rfl⟩) (fun _ => ?_) htarget hsource fun e he => ?_
    · exact (by decide : Shown "toy".toList)
    · cases he
  · refine Compiler.Quiet.shown_log_run (fun _ _ => ⟨rfl, rfl⟩) (fun _ => ?_) htarget ?_ fun e he => ?_
    · exact (by decide : Shown "toy2".toList)
    · show Shown ("BEGIN ".toList ++ source ++ " END".toList)
      simp only [Text.shown_append, hsource]
      decide
    · cases he
  · refine Compiler.Quiet.shown_log_run (fun _ _ => ⟨rfl, rfl⟩) (fun _ => ?_) htarget hsource fun e he => ?_
    · exact (by decide : Shown "broken".toList)
    · cases he
      decide
  · exact Frontend.shown_log_run_gateList hsource htarget

/-- **Every record of a compilation is shown**, of a source and for a target that are. -/
theorem shown_log_compileAs (hsource : Shown source) (htarget : Shown target.name) (lang : Text) :
    ∀ r ∈ (withBuiltins.compileAs lang source target ()).log, r.Shown := by
  have hfactory := factory?_withBuiltins (ω := Unit) lang
  cases hlatest : latest builtins lang with
  | none =>
    rw [hlatest, Option.map_none] at hfactory
    rw [compileAs, resolve_of_none hfactory]
    exact List.forall_mem_nil _
  | some c =>
    rw [hlatest, Option.map_some] at hfactory
    have hmem := mem_of_latest hlatest
    have hlang : Shown lang := by
      have hnames : ∀ entry ∈ builtins, Shown entry.1 := by decide
      exact hnames _ hmem
    have horigin : Shown origin := by decide
    have hlog : (c.compile source target).log = (c.pipeline.run source target).log := List.append_nil _
    rw [compileAs, resolve_of_some hfactory]
    refine List.forall_mem_append.2 ⟨List.forall_mem_singleton.2 ⟨horigin, ?_⟩, ?_⟩
    · unfold resolvedText
      simp only [Text.shown_append, hlang]
      decide
    · exact hlog ▸ shown_log_run hmem hsource htarget

end Registry

namespace CommandLine

/-! ## Reports -/

/-- **Nothing that a terminal would obey is printed of a record**, whatever the source was. -/
theorem Report.shown_printed (r : Report) : Shown (r.log.flatMap LogRecord.line) := by
  intro c hc
  obtain ⟨record, -, hc⟩ := List.mem_flatMap.1 hc
  exact Text.shown_plain _ c hc

example : LogRecord.line ⟨.trace, "a".toList, "\x1b[31mH 0\x1b[0m\n\x07# é".toList⟩ =
    "[TRACE a] H 0\n    # é\n".toList := by decide

theorem Report.stderr_eq_of_shown {r : Report} (h : ∀ record ∈ r.log, record.Shown) :
    r.stderr = r.log.flatMap LogRecord.framed ++ r.complaint := by
  have hlines : ∀ record ∈ r.log, record.line = record.framed := fun record hrecord =>
    LogRecord.line_eq_framed_iff.2 (h record hrecord)
  rw [stderr, List.flatMap_congr hlines]

theorem Options.shown_log_report {o : Options} {content : Except ReadError ByteArray} (htarget : Shown o.target)
    (hsource : ∀ source : Text, content = .ok source.utf8.toByteArray → Shown source) (setting : Option LogFilter) :
    ∀ record ∈ (o.report content setting).log, record.Shown := by
  unfold report
  split
  · exact List.forall_mem_nil _
  · split
    · exact List.forall_mem_nil _
    · rename_i source hdecoded
      rw [(o.tells_reportOf setting (o.compile source)).log]
      intro record hrecord
      have hshown := hsource source (decoded_eq_ok_iff.1 hdecoded)
      exact Registry.shown_log_compileAs hshown htarget o.lang record (List.mem_of_mem_filter hrecord)

/-- **The log of a source that is shown is printed whole**: where all of the source and of the target's name is shown, every
record that the filter lets through is printed as it is framed, one after the other, and then the error. -/
theorem stderr_of_shown {arguments : List Text} {o : Options} (harguments : Request.ofArguments arguments = .ok (.run o))
    (htarget : Shown o.target) {read : Option Text → Except ReadError ByteArray}
    (hsource : ∀ source : Text, read o.input = .ok source.utf8.toByteArray → Shown source) (setting : Option LogFilter) :
    ∃ report, invoke arguments read setting = .ok report ∧
      report.stderr = report.log.flatMap LogRecord.framed ++ report.complaint := by
  refine ⟨o.report (read o.input) setting, ?_, Report.stderr_eq_of_shown (Options.shown_log_report htarget hsource setting)⟩
  rw [invoke, harguments]
  rfl

end CommandLine
end QuantumKernel
