import QuantumKernel.CommandLine.Directory
import QuantumKernel.Proofs.Verdict
/-! # Paths — which file a command line compiles

A path leads to a file of the working directory by its name, with nothing in front of it but steps that stay in the directory
(`read_eq_ok_iff`).  A file that is found is compiled as if it stood on standard input (`file_as_standard_input`), and where
none is found the program says why and exits with 1 (`exit_one_of_no_file`).
-/
namespace QuantumKernel

theorem Text.intercalate_concat {sep : Char} {w : Text} : ∀ ws : List Text,
    [sep].intercalate (ws ++ [w]) = ws.flatMap (· ++ [sep]) ++ w
  | [] => List.intercalate_singleton
  | v :: ws => by
    have hne : ws ++ [w] ≠ [] := by simp
    rw [List.cons_append, List.intercalate_cons_of_ne_nil hne, intercalate_concat ws, List.flatMap_cons,
      List.append_assoc (v ++ [sep])]

namespace CommandLine

/-- What may stand in front of a file's name: steps that stay in the directory, with one slash or more after each. -/
inductive Here : Text → Prop
  | nil : Here []
  | step {rest : Text} (slashes : Nat) : Here rest → Here ("./".toList ++ (List.replicate slashes '/' ++ rest))

/-- A name that a file can be found by: it is neither empty nor that of a directory. -/
def IsName (name : Text) : Prop := '/' ∉ name ∧ name ≠ [] ∧ name ≠ ['.'] ∧ name ≠ ['.', '.']

namespace Directory

variable {d : Directory} {path name here : Text} {content : ByteArray}

/-! ## Following a path -/

theorem follow_slashes (inside : Bool) (t : Text) : ∀ slashes : Nat,
    d.follow inside (Text.splitWhere (· == '/') (List.replicate slashes '/' ++ t)) =
      d.follow inside (Text.splitWhere (· == '/') t)
  | 0 => rfl
  | slashes + 1 => by
    have hsplit : Text.splitWhere (· == '/') ('/' :: (List.replicate slashes '/' ++ t)) =
        [] :: Text.splitWhere (· == '/') (List.replicate slashes '/' ++ t) := Text.splitWhere_append_cons rfl _ []
    rw [List.replicate_succ, List.cons_append, hsplit, follow, if_pos (.inl rfl), follow_slashes inside t slashes]

theorem follow_here (h : Here here) (inside : Bool) (t : Text) :
    d.follow inside (Text.splitWhere (· == '/') (here ++ t)) = d.follow inside (Text.splitWhere (· == '/') t) := by
  induction h with
  | nil => rfl
  | @step rest slashes _ ih =>
    have hsplit : Text.splitWhere (· == '/') ("./".toList ++ (List.replicate slashes '/' ++ rest) ++ t) =
        ['.'] :: Text.splitWhere (· == '/') (List.replicate slashes '/' ++ (rest ++ t)) := by
      rw [List.append_assoc, List.append_assoc]
      exact Text.splitWhere_append_cons rfl _ ['.']
    rw [hsplit, follow, if_pos (.inr rfl), follow_slashes, ih]

theorem follow_name (h : IsName name) : d.follow true [name] =
    match d.files.lookup name with
    | none => .error .missing
    | some content => .ok content := by
  obtain ⟨-, hne, hdot, hdots⟩ := h
  rw [follow, if_neg (not_or.2 ⟨hne, hdot⟩), if_neg hdots]
  rfl

/-- Steps that stay in the directory make no difference to what a name is read as. -/
theorem read_here_append (hhere : Here here) (hname : IsName name) : d.read (here ++ name) =
    match d.files.lookup name with
    | none => .error .missing
    | some content => .ok content := by
  have hne : here ++ name ≠ [] := List.append_ne_nil_of_right_ne_nil _ hname.2.1
  have hinside : ((here ++ name).head? != some '/') = true := by
    cases hhere with
    | nil =>
      rw [List.nil_append, bne_iff_ne]
      intro hhead
      exact hname.1 (List.mem_of_mem_head? hhead)
    | step => rfl
  have hpieces : Text.splitWhere (· == '/') name = [name] :=
    Text.splitWhere_of_forall fun c hc => beq_false_of_ne fun heq => hname.1 (heq ▸ hc)
  rw [read, if_neg hne, hinside, follow_here hhere, hpieces, follow_name hname]

/-- **Only a path whose pieces but the last stay in the directory leads to a file**, and the last is its name. -/
theorem of_follow_eq_ok : ∀ {pieces : List Text} {inside : Bool}, d.follow inside pieces = .ok content →
    inside = true ∧ ∃ stays name, pieces = stays ++ [name] ∧ (∀ s ∈ stays, s = [] ∨ s = ['.']) ∧
      (name ≠ [] ∧ name ≠ ['.'] ∧ name ≠ ['.', '.']) ∧ d.files.lookup name = some content
  | [], _, h => by cases h
  | piece :: rest, inside, h => by
    rw [follow] at h
    split at h
    · rename_i hstays
      obtain ⟨hinside, stays, name, rfl, hrest, hname⟩ := of_follow_eq_ok h
      exact ⟨hinside, piece :: stays, name, rfl, List.forall_mem_cons.2 ⟨hstays, hrest⟩, hname⟩
    split at h
    · obtain ⟨hinside, -⟩ := of_follow_eq_ok h
      cases hinside
    · rename_i hstays hleaves
      obtain ⟨hne, hdot⟩ := not_or.1 hstays
      split at h
      · cases h
      · rename_i found hfound
        split at h
        · rename_i hrest
          subst hrest
          cases h
          cases inside with
          | false => cases hfound
          | true => exact ⟨rfl, [], piece, rfl, List.forall_mem_nil _, ⟨hne, hdot, hleaves⟩, hfound⟩
        · cases h

/-- Pieces that stay in the directory, each with its slash, are steps, and slashes in front of them. -/
theorem exists_here_of_stays : ∀ {stays : List Text}, (∀ s ∈ stays, s = [] ∨ s = ['.']) →
    ∃ slashes here, Here here ∧ stays.flatMap (· ++ ['/']) = List.replicate slashes '/' ++ here
  | [], _ => ⟨0, [], .nil, rfl⟩
  | s :: stays, h => by
    obtain ⟨slashes, here, hhere, hstays⟩ := exists_here_of_stays fun s hs => h s (List.mem_cons_of_mem _ hs)
    rw [List.flatMap_cons, hstays]
    rcases h s (List.mem_cons_self ..) with rfl | rfl
    · exact ⟨slashes + 1, here, hhere, rfl⟩
    · exact ⟨0, _, .step slashes hhere, rfl⟩

/-- **A path leads to a file exactly when it is the file's name**, with steps in front that stay in the directory. -/
theorem read_eq_ok_iff : d.read path = .ok content ↔
    ∃ here name, path = here ++ name ∧ Here here ∧ IsName name ∧ d.files.lookup name = some content := by
  constructor
  · intro h
    unfold read at h
    split at h
    · cases h
    · obtain ⟨hinside, stays, name, hpieces, hstays, hname, hfile⟩ := of_follow_eq_ok h
      obtain ⟨slashes, here, hhere, hflat⟩ := exists_here_of_stays hstays
      have hpath : path = stays.flatMap (· ++ ['/']) ++ name := by
        rw [← Text.intercalate_concat, ← hpieces, Text.intercalate_splitWhere]
      have hslash : '/' ∉ name := fun hmem => by
        have hmem' : name ∈ Text.splitWhere (· == '/') path := by rw [hpieces]; simp
        simpa using Text.not_of_mem_splitWhere hmem' _ hmem
      rw [hflat] at hpath
      cases slashes with
      | zero => exact ⟨here, name, hpath, hhere, ⟨hslash, hname⟩, hfile⟩
      | succ slashes =>
        -- a path that starts with a slash is not followed from the directory
        rw [hpath] at hinside
        simp [List.replicate_succ] at hinside
  · rintro ⟨here, name, rfl, hhere, hname, hfile⟩
    rw [read_here_append hhere hname, hfile]

example : (Directory.mk [("k".toList, ByteArray.mk #[72])]).read ".//./k".toList = .ok (ByteArray.mk #[72]) := by rfl

theorem follow_ne_notUtf8 : ∀ (pieces : List Text) (inside : Bool), d.follow inside pieces ≠ .error .notUtf8
  | [], _ => by
    rw [follow]
    simp
  | piece :: rest, inside => by
    rw [follow]
    split
    · exact follow_ne_notUtf8 rest inside
    split
    · exact follow_ne_notUtf8 rest false
    · split
      · simp
      · split <;> simp

theorem read_ne_notUtf8 : d.read path ≠ .error .notUtf8 := by
  unfold read
  split
  · simp
  · exact follow_ne_notUtf8 _ _

end Directory

/-! ## Command lines with a file -/

variable {c : Draft} {arguments without : List Text} {d : Directory} {here name path : Text} {content : ByteArray}

/-- **A file is compiled as if it stood on standard input**: a command line that names it, by any path that leads to it, leaves
the report of one that names no file and is given what is in it. -/
theorem file_as_standard_input (harguments : Spells { c with input := some (here ++ name) } arguments)
    (hwithout : Spells { c with input := none } without) (hhere : Here here) (hname : IsName name)
    (hfile : d.files.lookup name = some content) (standardInput : ByteArray) (setting : Option LogFilter) :
    ∃ report, invoke arguments (d.input standardInput) setting = .ok report ∧
      invoke without (d.input content) setting = .ok report := by
  have hread : d.read (here ++ name) = .ok content := by rw [Directory.read_here_append hhere hname, hfile]
  refine ⟨c.options.report (.ok content) setting, ?_, ?_⟩
  · rw [invoke, harguments.ofArguments]
    show Except.ok (c.options.report (d.read (here ++ name)) setting) = _
    rw [hread]
  · rw [invoke, hwithout.ofArguments]
    rfl

/-- **Where no file is found the program says so and exits with 1**, whatever stands on standard input. -/
theorem exit_one_of_no_file (harguments : Spells { c with input := some path } arguments) (hlist : c.list = false)
    (h : ¬ ∃ here name content, path = here ++ name ∧ Here here ∧ IsName name ∧ d.files.lookup name = some content)
    (standardInput : ByteArray) (setting : Option LogFilter) :
    ∃ e, d.read path = .error e ∧ e ≠ .notUtf8 ∧
      invoke arguments (d.input standardInput) setting = .ok ⟨1, [], [], errorLine e.message⟩ := by
  have hnone : ∀ content, d.read path ≠ .ok content := fun content hread => by
    obtain ⟨here, name, hpath⟩ := Directory.read_eq_ok_iff.1 hread
    exact h ⟨here, name, content, hpath⟩
  obtain ⟨e, he, hreport⟩ := Options.report_of_unreadable (o := { c.options with input := some path }) hlist
    (fun hsource => hsource.elim fun _ => hnone _) setting
  rcases he with hread | ⟨-, content, hread⟩
  · refine ⟨e, hread, fun heq => Directory.read_ne_notUtf8 (heq ▸ hread), ?_⟩
    rw [invoke, harguments.ofArguments, ← hreport]
    rfl
  · exact absurd hread (hnone content)

end CommandLine
end QuantumKernel
