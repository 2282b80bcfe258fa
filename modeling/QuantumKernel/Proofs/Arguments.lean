import QuantumKernel.CommandLine.Report
/-! # Arguments — the ways to spell a choice of options

A command line is made of parts, an option with its value being one.  `Spells` builds the command lines of a choice part by
part, in any order, each part setting what was not set; reading one gives the settings of its parts (`Form.readSettings_append`),
and taking them up gives the choice (`Spells.conclude`), whatever was taken up before that they do not set again.
-/
namespace QuantumKernel
namespace CommandLine

/-! ## Spellings -/

/-- A number of qubits as it may be written: with zeros in front, and a plus sign. -/
inductive Counts (n : UInt64) : Text → Prop
  | plain (zeros : Nat) : Counts n (List.replicate zeros '0' ++ Text.decimal n.toNat)
  | signed (zeros : Nat) : Counts n ('+' :: (List.replicate zeros '0' ++ Text.decimal n.toNat))

/-- A setting that turns one choice into another, which has one thing more. -/
inductive Sets : Setting → Draft → Draft → Prop
  | lang {c : Draft} (value : Text) : c.lang = none → Sets (.value .lang value) c { c with lang := some value }
  | target {c : Draft} (value : Text) : c.target = none → Sets (.value .target value) c { c with target := some value }
  | qubits {c : Draft} {n : UInt64} {text : Text} : c.qubits = none → Counts n text →
      Sets (.value .qubits text) c { c with qubits := some n }
  | list {c : Draft} : c.list = false → Sets (.flag .list) c { c with list := true }
  | verbose {c : Draft} : c.verbose = false → Sets (.flag .verbose) c { c with verbose := true }
  | input {c : Draft} {path : Text} : c.input = none → path ≠ [] → Sets (.operand path) c { c with input := some path }

/-- The letters of the options that have one. -/
inductive Letter : Key → Char → Prop
  | lang : Letter .lang 'l'
  | target : Letter .target 't'

/-- An option by its letter: what stands after the dash, and the arguments after that. -/
inductive ShortForm (key : Key) (value : Text) : Text → List Text → Prop
  | separate {letter : Char} : Letter key letter → value.head? ≠ some '-' → ShortForm key value [letter] [value]
  | equals {letter : Char} : Letter key letter → value ≠ [] → ShortForm key value (letter :: '=' :: value) []
  | direct {letter : Char} : Letter key letter → value ≠ [] → value.head? ≠ some '=' →
      ShortForm key value (letter :: value) []

/-- The ways to write one setting. -/
inductive Form : Setting → List Text → Prop
  | separate {key : Key} {value : Text} : value.head? ≠ some '-' →
      Form (.value key value) ["--".toList ++ key.name, value]
  | equals {key : Key} {value : Text} : Form (.value key value) ["--".toList ++ key.name ++ '=' :: value]
  | short {key : Key} {value letters : Text} {after : List Text} : ShortForm key value letters after →
      Form (.value key value) (('-' :: letters) :: after)
  | list : Form (.flag .list) ["--list".toList]
  | verbose : Form (.flag .verbose) ["--verbose".toList]
  | letter : Form (.flag .verbose) ["-v".toList]
  | operand {path : Text} : (path.head? = some '-' → path = "-".toList) → Form (.operand path) [path]

/-- The command lines that spell a choice, in any order of their parts: an operand may stand last, after two dashes, and the
letter of the flag may stand in front of another. -/
inductive Spells : Draft → List Text → Prop
  | nothing : Spells {} []
  | dashes {path : Text} : path ≠ [] → Spells { input := some path } ["--".toList, path]
  | part {c c' : Draft} {setting : Setting} {part rest : List Text} : Sets setting c c' → Form setting part →
      Spells c rest → Spells c' (part ++ rest)
  | grouped {c c' c'' : Draft} {key : Key} {value letters : Text} {after rest : List Text} :
      Sets (.value key value) c c' → Sets (.flag .verbose) c' c'' → ShortForm key value letters after →
      Spells c rest → Spells c'' (('-' :: 'v' :: letters) :: after ++ rest)

/-- A choice with its defaults written out. -/
def Draft.explicit (c : Draft) : Draft :=
  { c with lang := some (c.lang.getD "gates".toList), target := some (c.target.getD "simulator".toList) }

/-! ## Reading a part -/

theorem readValue_of_head? {key : Key} {text : Text} (h : text.head? ≠ some '-') (rest : List Text) :
    readValue key (text :: rest) = .ok (.value key text) :: readSettings rest := by
  have hfollow : mayFollow text = true := by
    unfold mayFollow
    split
    · exact absurd rfl h
    · rfl
  rw [readValue, if_pos hfollow]

theorem readLetters_of_letter {key : Key} {letter : Char} (h : Letter key letter) (rest : Text) :
    readLetters (letter :: rest) =
      if rest = [] then ⟨[], some key⟩ else ⟨[.ok (.value key (attachedValue rest))], none⟩ := by
  cases h with
  | lang => rfl
  | target => rfl

theorem attachedValue_of_head? {text : Text} (h : text.head? ≠ some '=') : attachedValue text = text := by
  unfold attachedValue
  split
  · exact absurd rfl h
  · rfl

/-- An option by its letter, read after whatever flags the argument has in front of it. -/
theorem ShortForm.readSettings_append {key : Key} {value letters : Text} {after : List Text}
    (h : ShortForm key value letters after) {argument : Text} (flags : List (Except UsageError Setting))
    (hargument : argument ≠ "--".toList)
    (hread : readArgument argument = ⟨flags ++ (readLetters letters).settings, (readLetters letters).waiting⟩)
    (rest : List Text) :
    readSettings (argument :: (after ++ rest)) = flags ++ .ok (.value key value) :: readSettings rest := by
  cases h with
  | separate hletter hvalue =>
    rw [readLetters_of_letter hletter, if_pos rfl] at hread
    rw [readSettings_cons hargument hread, List.singleton_append, readOthers, readValue_of_head? hvalue]
    simp
  | equals hletter hvalue =>
    rw [readLetters_of_letter hletter, if_neg (List.cons_ne_nil _ _)] at hread
    rw [List.nil_append, readSettings_cons hargument hread, attachedValue, readOthers]
    simp
  | direct hletter hvalue hequals =>
    rw [readLetters_of_letter hletter, if_neg hvalue, attachedValue_of_head? hequals] at hread
    rw [List.nil_append, readSettings_cons hargument hread, readOthers]
    simp

theorem ShortForm.ne_nil {key : Key} {value letters : Text} {after : List Text} (h : ShortForm key value letters after) :
    ∃ letter rest, letters = letter :: rest ∧ Letter key letter := by
  cases h with
  | separate hletter => exact ⟨_, _, rfl, hletter⟩
  | equals hletter => exact ⟨_, _, rfl, hletter⟩
  | direct hletter => exact ⟨_, _, rfl, hletter⟩

theorem readArgument_operand {path : Text} (h : path.head? = some '-' → path = "-".toList) :
    readArgument path = ⟨[.ok (.operand path)], none⟩ := by
  unfold readArgument
  split
  · cases h rfl
  · cases h rfl
  · rfl

theorem append_ne_dashes {name : Text} (h : name ≠ []) : "--".toList ++ name ≠ "--".toList := fun heq =>
  h (List.append_right_eq_self.1 heq)

/-- **A part is read as the setting that it writes.** -/
theorem Form.readSettings_append {setting : Setting} {part : List Text} (h : Form setting part) (rest : List Text) :
    readSettings (part ++ rest) = .ok setting :: readSettings rest := by
  cases h with
  | @separate key value hvalue =>
    have hread : readArgument ("--".toList ++ key.name) = ⟨[], some key⟩ := by cases key <;> rfl
    have hname : key.name ≠ [] := by cases key <;> decide
    rw [List.cons_append, readSettings_cons (append_ne_dashes hname) hread, List.singleton_append, readOthers,
      readValue_of_head? hvalue]
    rfl
  | @equals key value =>
    have hread : readArgument ("--".toList ++ (key.name ++ '=' :: value)) = ⟨[.ok (.value key value)], none⟩ := by
      cases key <;> rfl
    have hname : key.name ++ '=' :: value ≠ [] := List.append_ne_nil_of_right_ne_nil _ (List.cons_ne_nil _ _)
    rw [List.singleton_append, List.append_assoc, readSettings_cons (append_ne_dashes hname) hread]
    rfl
  | short hshort =>
    obtain ⟨letter, letters, rfl, hletter⟩ := hshort.ne_nil
    have hdashes : '-' :: letter :: letters ≠ "--".toList := by cases hletter <;> simp
    refine hshort.readSettings_append [] hdashes ?_ rest
    cases hletter with
    | lang => rfl
    | target => rfl
  | list => exact readSettings_cons (by decide) rfl rest
  | verbose => exact readSettings_cons (by decide) rfl rest
  | letter => exact readSettings_cons (by decide) rfl rest
  | operand hpath =>
    have hdashes : ∀ {path : Text}, (path.head? = some '-' → path = "-".toList) → path ≠ "--".toList := by
      rintro path h rfl
      cases h rfl
    rw [List.singleton_append, readSettings_cons (hdashes hpath) (readArgument_operand hpath)]
    rfl

theorem ShortForm.readSettings_grouped {key : Key} {value letters : Text} {after : List Text}
    (h : ShortForm key value letters after) (rest : List Text) :
    readSettings (('-' :: 'v' :: letters) :: after ++ rest) =
      .ok (.flag .verbose) :: .ok (.value key value) :: readSettings rest := by
  have hdashes : '-' :: 'v' :: letters ≠ "--".toList := by simp
  exact h.readSettings_append [.ok (.flag .verbose)] hdashes rfl rest

/-! ## Taking settings up -/

theorem countOf?_of_isDigit {digits : Text} (h : ∀ c ∈ digits, c.isDigit = true) :
    countOf? digits = countOf? ('+' :: digits) := by
  cases digits with
  | nil => rfl
  | cons c digits =>
    have hc : c ≠ '+' := by
      rintro rfl
      exact absurd (h '+' (List.mem_cons_self ..)) (by decide)
    unfold countOf?
    split
    · rename_i heq
      exact absurd (List.cons.inj heq).1 hc
    · rfl

theorem Counts.countOf?_eq {n : UInt64} {text : Text} (h : Counts n text) : countOf? text = some n := by
  have hsigned : ∀ zeros, countOf? ('+' :: (List.replicate zeros '0' ++ Text.decimal n.toNat)) = some n := by
    intro zeros
    simp only [countOf?, Text.decimal?_zeros_append, if_pos n.toNat_lt_size, UInt64.ofNat_toNat]
  cases h with
  | plain zeros =>
    rw [countOf?_of_isDigit fun _ hc => Text.isDigit_of_mem_zeros_append hc]
    exact hsigned zeros
  | signed zeros => exact hsigned zeros

namespace Draft

/-- Two choices that do not set the same thing. -/
structure Apart (d c : Draft) : Prop where
  lang : d.lang = none ∨ c.lang = none
  target : d.target = none ∨ c.target = none
  qubits : d.qubits = none ∨ c.qubits = none
  list : d.list = false ∨ c.list = false
  verbose : d.verbose = false ∨ c.verbose = false
  input : d.input = none ∨ c.input = none

/-- What two choices set together. -/
def merge (d c : Draft) : Draft where
  lang := d.lang.or c.lang
  target := d.target.or c.target
  qubits := d.qubits.or c.qubits
  list := d.list || c.list
  verbose := d.verbose || c.verbose
  input := d.input.or c.input

@[simp] theorem merge_empty (d : Draft) : d.merge {} = d := by simp [merge]

@[simp] theorem empty_merge (c : Draft) : merge {} c = c := by simp [merge]

theorem empty_apart (c : Draft) : Apart {} c := ⟨.inl rfl, .inl rfl, .inl rfl, .inl rfl, .inl rfl, .inl rfl⟩

theorem options_explicit (c : Draft) : c.explicit.options = c.options := rfl

end Draft

open Draft (Apart)

/-- **A setting is taken up where it is not yet set**, and then it is no longer left to set. -/
theorem Sets.add {setting : Setting} {c c' d : Draft} (h : Sets setting c c') (hd : Apart d c') :
    ∃ next, d.add setting = .ok next ∧ Apart next c ∧ next.merge c = d.merge c' := by
  obtain ⟨hlang, htarget, hqubits, hlist, hverbose, hinput⟩ := hd
  -- `c'` has what the setting sets, so `d` is free there
  cases h with
  | lang value hnone =>
    have hfree : d.lang = none := by simpa using hlang
    exact ⟨{ d with lang := some value }, by simp [Draft.add, Draft.addValue, hfree],
      ⟨.inr hnone, htarget, hqubits, hlist, hverbose, hinput⟩, by simp [Draft.merge, hfree]⟩
  | target value hnone =>
    have hfree : d.target = none := by simpa using htarget
    exact ⟨{ d with target := some value }, by simp [Draft.add, Draft.addValue, hfree],
      ⟨hlang, .inr hnone, hqubits, hlist, hverbose, hinput⟩, by simp [Draft.merge, hfree]⟩
  | @qubits _ n _ hnone hcount =>
    have hfree : d.qubits = none := by simpa using hqubits
    exact ⟨{ d with qubits := some n }, by simp [Draft.add, Draft.addValue, hfree, hcount.countOf?_eq],
      ⟨hlang, htarget, .inr hnone, hlist, hverbose, hinput⟩, by simp [Draft.merge, hfree]⟩
  | list hnone =>
    have hfree : d.list = false := by simpa using hlist
    exact ⟨{ d with list := true }, by simp [Draft.add, Draft.addFlag, hfree],
      ⟨hlang, htarget, hqubits, .inr hnone, hverbose, hinput⟩, by simp [Draft.merge, hfree]⟩
  | verbose hnone =>
    have hfree : d.verbose = false := by simpa using hverbose
    exact ⟨{ d with verbose := true }, by simp [Draft.add, Draft.addFlag, hfree],
      ⟨hlang, htarget, hqubits, hlist, .inr hnone, hinput⟩, by simp [Draft.merge, hfree]⟩
  | @input _ path hnone hpath =>
    have hfree : d.input = none := by simpa using hinput
    exact ⟨{ d with input := some path }, by simp [Draft.add, Draft.addOperand, hfree, hpath],
      ⟨hlang, htarget, hqubits, hlist, hverbose, .inr hnone⟩, by simp [Draft.merge, hfree]⟩

theorem Sets.conclude {setting : Setting} {c c' d : Draft} (h : Sets setting c c') (hd : Apart d c') :
    ∃ next, Apart next c ∧ next.merge c = d.merge c' ∧
      ∀ rest, conclude d (.ok setting :: rest) = CommandLine.conclude next rest := by
  obtain ⟨next, hadd, hapart, hmerge⟩ := h.add hd
  have hhelp : setting ≠ .flag .help := by rintro rfl; cases h
  have hversion : setting ≠ .flag .version := by rintro rfl; cases h
  refine ⟨next, hapart, hmerge, fun rest => ?_⟩
  rw [conclude_ok_cons d hhelp hversion, hadd]
  rfl

/-- **A command line asks for the choice that it spells**, next to whatever was taken up before. -/
theorem Spells.conclude {c : Draft} {arguments : List Text} (h : Spells c arguments) :
    ∀ {d : Draft}, Apart d c → conclude d (readSettings arguments) = .ok (.run (d.merge c).options) := by
  induction h with
  | nothing =>
    intro d _
    rw [Draft.merge_empty]
    rfl
  | @dashes path hpath =>
    intro d hd
    obtain ⟨next, -, hmerge, hconclude⟩ := (Sets.input (c := {}) rfl hpath).conclude hd
    rw [readSettings_dashes, List.map_singleton, hconclude, ← hmerge, Draft.merge_empty]
    rfl
  | part hsets hform _ ih =>
    intro d hd
    obtain ⟨next, hapart, hmerge, hconclude⟩ := hsets.conclude hd
    rw [hform.readSettings_append, hconclude, ih hapart, hmerge]
  | grouped hsets hflag hshort _ ih =>
    intro d hd
    obtain ⟨middle, hmiddle, hmerge, hconclude⟩ := hflag.conclude hd
    obtain ⟨next, hnext, hmerge', hconclude'⟩ := hsets.conclude hmiddle
    rw [hshort.readSettings_grouped, hconclude, hconclude', ih hnext, hmerge', hmerge]

theorem Spells.ofArguments {c : Draft} {arguments : List Text} (h : Spells c arguments) :
    Request.ofArguments arguments = .ok (.run c.options) := by
  rw [Request.ofArguments, h.conclude c.empty_apart, Draft.empty_merge]

/-- **All spellings of a choice are one invocation**, in any order of their parts, and so are those of a choice that only
leaves out a default: they are accepted, ask for that choice, and leave the report of it, whatever is read and shown. -/
theorem spellings_are_one_invocation {c c' : Draft} {a b : List Text} (ha : Spells c a) (hb : Spells c' b)
    (h : c.explicit = c'.explicit) (read : Option Text → Except ReadError ByteArray) (setting : Option LogFilter) :
    (Request.ofArguments a = .ok (.run c.options) ∧ Request.ofArguments b = .ok (.run c.options)) ∧
      ∃ report, report = c.options.report (read c.options.input) setting ∧
        invoke a read setting = .ok report ∧ invoke b read setting = .ok report := by
  have hoptions : c'.options = c.options := by rw [← Draft.options_explicit c', ← h, Draft.options_explicit]
  have hb' : Request.ofArguments b = .ok (.run c.options) := by rw [hb.ofArguments, hoptions]
  refine ⟨⟨ha.ofArguments, hb'⟩, _, rfl, ?_, ?_⟩
  · rw [invoke, ha.ofArguments]
    rfl
  · rw [invoke, hb']
    rfl

theorem spellings_are_one_invocation_toy2 :
    let c : Draft := { lang := some "toy2".toList, qubits := some 7, verbose := true, input := some "-x".toList }
    let c' : Draft := { c with target := some "simulator".toList }
    let a := ["-vl", "toy2", "--qubits=+007", "--", "-x"].map String.toList
    let b := ["--qubits", "7", "--target=simulator", "-l=toy2", "--verbose", "--", "-x"].map String.toList
    Spells c a ∧ Spells c' b ∧ c.explicit = c'.explicit ∧
      (Request.ofArguments a = .ok (.run c.options) ∧ Request.ofArguments b = .ok (.run c.options)) ∧
      ∃ report, report = c.options.report (.error .missing) (some .off) ∧
        invoke a (fun _ => .error .missing) (some .off) = .ok report ∧
        invoke b (fun _ => .error .missing) (some .off) = .ok report := by
  intro c c' a b
  have hdashes : Spells { input := some "-x".toList } ["--".toList, "-x".toList] := .dashes (by decide)
  have ha : Spells c a :=
    .grouped (.lang _ rfl) (.verbose rfl) (.separate .lang (by decide)) (.part (.qubits rfl (.signed 2)) .equals hdashes)
  have hb : Spells c' b :=
    .part (.qubits rfl (.plain 0)) (.separate (by decide)) <| .part (.target _ rfl) .equals <|
      .part (.lang _ rfl) (.short (.equals .lang (by decide))) <| .part (.verbose rfl) .verbose hdashes
  exact ⟨ha, hb, rfl, spellings_are_one_invocation ha hb rfl (fun _ => .error .missing) (some .off)⟩

end CommandLine
end QuantumKernel
