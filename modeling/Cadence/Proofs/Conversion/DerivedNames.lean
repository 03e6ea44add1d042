import Cadence.Proofs.Conversion.Collecting

/-!
The names that are derived for the logs of a directory. An output goes on from its directory with a name that begins
like its log's, so the outputs of different logs part there, whatever the suffix adds. A draft ends in a hidden name, or
else its output ends in `..` and the draft goes further and ends so too; no log ends in either. So all these paths are
told apart by their steps (`collected_names_apart`).
-/

namespace Cadence

open FileTree

/-- A name that a log in a directory can have: without a slash and not hidden. -/
structure IsShownName (name : Text) : Prop where
  plain : '/' ∉ name
  something : name ≠ []
  notHidden : name.head? ≠ some '.'

/-- The paths derived for logs, compared by their steps: no two outputs are the same and no two drafts, no draft is an
output or a log, and where an output ends in a name its draft has that name with a dot before it, in the same
directory. -/
structure NamesApart (logs outputs : List Path) : Prop where
  outputsApart : outputs.Pairwise fun first second => ¬ first.isSameAsWritten second
  draftsApart : outputs.Pairwise fun first second => ¬ first.draft.isSameAsWritten second.draft
  notOutput : ∀ output ∈ outputs, ∀ other ∈ outputs, ¬ output.draft.isSameAsWritten other
  notLog : ∀ output ∈ outputs, ∀ log ∈ logs, ¬ output.draft.isSameAsWritten log
  beside : ∀ output ∈ outputs, ∀ name, output.fileName? = some name →
    output.draft.fileName? = some ('.' :: name) ∧ output.draft.directory.isSameAsWritten output.directory

theorem Path.isSameAsWritten_iff {first second : Path} : first.isSameAsWritten second ↔ first.steps = second.steps :=
  decide_eq_true_iff

namespace IsShownName

variable {name : Text} (shown : IsShownName name)
include shown

theorem exists_cons : ∃ c rest, name = c :: rest ∧ c ≠ '.' ∧ c ≠ '/' := by
  obtain ⟨plain, something, notHidden⟩ := shown
  obtain ⟨c, rest, rfl⟩ := List.exists_cons_of_ne_nil something
  refine ⟨c, rest, rfl, by simpa using notHidden, ?_⟩
  rintro rfl
  exact plain List.mem_cons_self

theorem isName (more : Text) : Path.Step.ofPiece? (name ++ more) = some (.name (name ++ more)) := by
  obtain ⟨c, rest, rfl, notDot, _⟩ := shown.exists_cons
  exact Path.Step.ofPiece?_eq_name_iff.mpr ⟨rfl, by simp, by simp [notDot], by simp [notDot]⟩

theorem relative (more : Text) : (Path.mk (name ++ more)).isAbsolute = false := by
  obtain ⟨c, rest, rfl, _, notSlash⟩ := shown.exists_cons
  simp [Path.isAbsolute, notSlash]

theorem ne_hidden (more hidden : Text) : name ++ more ≠ '.' :: hidden := by
  obtain ⟨c, rest, rfl, notDot, _⟩ := shown.exists_cons
  simp [notDot]

end IsShownName

/-! ## Outputs and drafts in one directory -/

namespace Path

/-- The output for a log of this name. -/
def outputNamed (directory : Path) (suffix name : Text) : Path :=
  (directory.join ⟨name⟩).extended suffix

variable {directory : Path} (some : directory.text ≠ []) {suffix first name other : Text} {others : List Text}
  (shown : IsShownName name) (shownOther : IsShownName other)

include some shown in
/-- The suffix makes the name of the log longer, up to its first slash; what follows are further steps. -/
theorem steps_outputNamed (cut : pieces '/' suffix = first :: others) : (directory.outputNamed suffix name).steps =
    directory.steps ++ .name (name ++ first) :: others.filterMap Step.ofPiece? := by
  have relative : (Path.mk name).isAbsolute = false := by simpa using shown.relative []
  have joined : directory.outputNamed suffix name = directory.join ⟨name ++ suffix⟩ := by
    simp only [outputNamed, extended, join, relative, shown.relative suffix, Bool.false_eq_true, if_false]
    split <;> simp
  rw [joined, steps_join some (shown.relative suffix), pieces_append_of_not_mem shown.plain cut,
    List.filterMap_cons_some (shown.isName first)]

/-- How the outputs in a directory and their drafts go on from it, by what the suffix adds to the names of logs. -/
inductive Ways (directory : Path) (suffix : Text) : Prop
  /-- Nothing but characters. -/
  | characters (more : Text)
      (outputs : ∀ name, IsShownName name →
        (directory.outputNamed suffix name).steps = directory.steps ++ [.name (name ++ more)])
      (drafts : ∀ name, IsShownName name →
        (directory.outputNamed suffix name).draft.steps = directory.steps ++ [.name ('.' :: (name ++ more))])
  /-- Further steps, the last one to a name. -/
  | names (more : Text) (steps : List Step) (last : Text)
      (outputs : ∀ name, IsShownName name →
        (directory.outputNamed suffix name).steps = directory.steps ++ .name (name ++ more) :: steps ++ [.name last])
      (drafts : ∀ name, IsShownName name → (directory.outputNamed suffix name).draft.steps =
        directory.steps ++ .name (name ++ more) :: steps ++ [.name ('.' :: last)])
  /-- Further steps, the last one up. -/
  | up (more : Text) (steps : List Step)
      (outputs : ∀ name, IsShownName name →
        (directory.outputNamed suffix name).steps = directory.steps ++ .name (name ++ more) :: steps ++ [.up])
      (drafts : ∀ name, IsShownName name → ∃ further, (directory.outputNamed suffix name).draft.steps =
        directory.steps ++ .name (name ++ more) :: steps ++ [.up] ++ further ++ [.up])

include some in
theorem ways (suffix : Text) : Ways directory suffix := by
  obtain ⟨first, others, cut⟩ := List.exists_cons_of_ne_nil (pieces_ne_nil '/' suffix)
  have outputs := fun name (shown : IsShownName name) => steps_outputNamed some shown cut
  obtain none | ⟨steps, last, whole⟩ := List.eq_nil_or_concat (others.filterMap Step.ofPiece?)
  · rw [none] at outputs
    exact .characters first outputs fun name shown => steps_draft_of_last (outputs name shown)
  · rw [List.concat_eq_append] at whole
    simp only [whole, ← List.cons_append, ← List.append_assoc] at outputs
    obtain ⟨piece, _, isStep⟩ := List.mem_filterMap.mp (show last ∈ others.filterMap Step.ofPiece? by simp [whole])
    obtain rfl | ⟨lastName, rfl⟩ := Step.ofPiece?_cases isStep
    · refine .up first steps outputs fun name shown => ?_
      have output := outputs name shown
      have ended : (directory.outputNamed suffix name).steps.getLast? = Option.some .up := by
        rw [output, List.getLast?_concat]
      have through : Step.name (name ++ first) ∈ (directory.outputNamed suffix name).steps := by simp [output]
      rw [← output]
      exact steps_draft_of_up ended through
    · exact .names first steps lastName outputs fun name shown => steps_draft_of_last (outputs name shown)

private theorem name_of_append {before rest restOther : List Step}
    (same : before ++ .name name :: rest = before ++ .name other :: restOther) : name = other :=
  Step.name.inj (List.cons.inj (List.append_cancel_left same)).1

section
include some shown shownOther

theorem outputNamed_apart (different : name ≠ other) :
    ¬ (directory.outputNamed suffix name).isSameAsWritten (directory.outputNamed suffix other) := by
  obtain ⟨first, others, cut⟩ := List.exists_cons_of_ne_nil (pieces_ne_nil '/' suffix)
  intro same
  rw [isSameAsWritten_iff, steps_outputNamed some shown cut, steps_outputNamed some shownOther cut] at same
  exact different (List.append_cancel_right (name_of_append same))

theorem draft_outputNamed_apart (different : name ≠ other) :
    ¬ (directory.outputNamed suffix name).draft.isSameAsWritten (directory.outputNamed suffix other).draft := by
  intro same
  rw [isSameAsWritten_iff] at same
  apply different
  cases ways some suffix with
  | characters more _ drafts =>
    rw [drafts name shown, drafts other shownOther] at same
    exact List.append_cancel_right (List.cons.inj (name_of_append same)).2
  | names more steps last _ drafts =>
    rw [drafts name shown, drafts other shownOther, List.append_assoc, List.append_assoc] at same
    exact List.append_cancel_right (name_of_append same)
  | up more steps _ drafts =>
    obtain ⟨further, draft⟩ := drafts name shown
    obtain ⟨furtherOther, draftOther⟩ := drafts other shownOther
    simp only [draft, draftOther, List.append_assoc] at same
    exact List.append_cancel_right (name_of_append same)

theorem draft_ne_outputNamed :
    ¬ (directory.outputNamed suffix name).draft.isSameAsWritten (directory.outputNamed suffix other) := by
  intro same
  rw [isSameAsWritten_iff] at same
  cases ways some suffix with
  | characters more outputs drafts =>
    rw [drafts name shown, outputs other shownOther] at same
    exact shownOther.ne_hidden more _ (name_of_append same).symm
  | names more steps last outputs drafts =>
    -- the last steps differ by a dot
    have ends := congrArg List.getLast? same
    rw [drafts name shown, outputs other shownOther, List.getLast?_concat, List.getLast?_concat] at ends
    simpa using congrArg List.length (Step.name.inj (Option.some.inj ends))
  | up more steps outputs drafts =>
    obtain ⟨further, draft⟩ := drafts name shown
    have lengths := congrArg List.length same
    rw [draft, outputs other shownOther] at lengths
    simp at lengths

theorem draft_ne_log {input : Path} (someInput : input.text ≠ []) :
    ¬ (directory.outputNamed suffix name).draft.isSameAsWritten (input.join ⟨other⟩) := by
  intro same
  rw [isSameAsWritten_iff, steps_join_name shownOther.plain (by simpa using shownOther.isName []) someInput] at same
  have ends := congrArg List.getLast? same
  rw [List.getLast?_concat] at ends
  have notHidden : ∀ hidden : Text, other ≠ '.' :: hidden := by simpa using shownOther.ne_hidden []
  cases ways some suffix with
  | characters more _ drafts =>
    rw [drafts name shown, List.getLast?_concat] at ends
    exact notHidden _ (Step.name.inj (Option.some.inj ends)).symm
  | names more steps last _ drafts =>
    rw [drafts name shown, List.getLast?_concat] at ends
    exact notHidden _ (Step.name.inj (Option.some.inj ends)).symm
  | up more steps _ drafts =>
    obtain ⟨further, draft⟩ := drafts name shown
    rw [draft, List.getLast?_concat] at ends
    cases ends

end

end Path

/-- The paths derived for logs of different names in one directory are apart, whatever the suffix and wherever the
outputs go. -/
theorem namesApart_of_shown {input directory : Path} (someInput : input.text ≠ []) (some : directory.text ≠ [])
    (suffix : Text) {names : List Text} (distinct : names.Nodup) (shown : ∀ name ∈ names, IsShownName name) :
    NamesApart (names.map fun name => input.join ⟨name⟩) (names.map (directory.outputNamed suffix)) where
  outputsApart := by
    rw [List.pairwise_map]
    refine distinct.imp_of_mem ?_
    intro name other member memberOther different
    exact Path.outputNamed_apart some (shown name member) (shown other memberOther) different
  draftsApart := by
    rw [List.pairwise_map]
    refine distinct.imp_of_mem ?_
    intro name other member memberOther different
    exact Path.draft_outputNamed_apart some (shown name member) (shown other memberOther) different
  notOutput := by
    simp only [List.forall_mem_map]
    intro name member other memberOther
    exact Path.draft_ne_outputNamed some (shown name member) (shown other memberOther)
  notLog := by
    simp only [List.forall_mem_map]
    intro name member other memberOther
    exact Path.draft_ne_log some (shown name member) (shown other memberOther) someInput
  beside := fun output _ name named => Path.draft_beside named

/-! ## The logs of a directory -/

section
variable {tree : FileTree} {here : Location} {input : Path} {extension : Text}

theorem FileTree.text_ne_nil_of_leadsToDirectory (leads : tree.leadsToDirectory here input = true) : input.text ≠ [] := by
  obtain ⟨location, located, _⟩ := leadsToDirectory_iff.mp leads
  exact text_ne_nil_of_valid (locate_eq_ok_iff.mp located).1

theorem FileTree.isShownName_of_mem_logNamesIn (named : tree.HasFileNames) {directory : Location} :
    ∀ name ∈ tree.logNamesIn here input directory extension, IsShownName name := by
  intro name member
  rw [logNamesIn, (sortBy_perm id _).mem_iff, List.mem_filter, mem_namesIn] at member
  obtain ⟨inside, isLog⟩ := member
  simp only [hasLogName, Bool.and_eq_true, decide_eq_true_eq] at isLog
  obtain ⟨plain, something⟩ := named name directory inside
  exact ⟨plain, something, isLog.1.1⟩

/-- In a directory or beside its log, an output is named after its log. -/
theorem Job.outputFor_join {job : Job} (aims : ∀ aim, job.output = some aim → tree.leadsToDirectory here aim = true)
    (someInput : input.text ≠ []) {name : Text} (shown : IsShownName name) :
    job.outputFor tree here (input.join ⟨name⟩) =
      (job.output.getD input).outputNamed job.settings.suffix name := by
  unfold outputFor
  cases output : job.output with
  | none => rfl
  | some aim =>
    have isName : Path.Step.ofPiece? name = some (.name name) := by simpa using shown.isName []
    obtain ⟨_, something, notHere, notUp⟩ := Path.Step.ofPiece?_eq_name_iff.mp isName
    have last : (input.join ⟨name⟩).lastName = name := by
      rw [Path.lastName, Path.fileName?_join someInput shown.plain something notHere notUp, Option.getD_some]
    simp only [aims aim output, if_true, Path.outputInside, last]
    rfl

end

/-- The logs of a directory are collected, and the paths that a job derives for them are apart if its outputs go beside
the logs or to a directory. Each output is chosen when the turn of its log comes. The tree may have changed by then, but
the path for the outputs must still lead to a directory: where it goes through a link, an output that takes the place of
the link ends that. -/
theorem collected_names_apart (job : Job) {tree : FileTree} (named : tree.HasFileNames) {here : Location} {input : Path}
    (inside : tree.leadsToDirectory here input = true) (extension : Text) (atTurn : Path → FileTree)
    (aims : ∀ aim log, job.output = some aim → (atTurn log).leadsToDirectory here aim = true) :
    ∃ logs, collectLogs (access here) input extension tree = (.ok logs, tree) ∧
      NamesApart logs (logs.map fun log => (outputPath (access here) job log (atTurn log)).1) := by
  have someInput := text_ne_nil_of_leadsToDirectory inside
  have some : (job.output.getD input).text ≠ [] := by
    cases output : job.output with
    | none => exact someInput
    | some aim => exact text_ne_nil_of_leadsToDirectory (aims aim input output)
  obtain ⟨directory, located, isDirectory⟩ := leadsToDirectory_iff.mp inside
  have shown : ∀ name ∈ tree.logNamesIn here input directory extension, IsShownName name :=
    isShownName_of_mem_logNamesIn named
  have distinct : (tree.logNamesIn here input directory extension).Nodup :=
    (sortBy_perm id _).nodup_iff.mpr ((namesIn_nodup tree directory).filter _)
  have collected : collectLogs (accessOrdered here id) input extension tree = _ :=
    collectLogs_ordered located isDirectory fun names => .refl names
  rw [accessOrdered_id] at collected
  have outputs : ((tree.logNamesIn here input directory extension).map fun name => input.join ⟨name⟩).map
      (fun log => (outputPath (access here) job log (atTurn log)).1) =
        (tree.logNamesIn here input directory extension).map
          ((job.output.getD input).outputNamed job.settings.suffix) := by
    rw [List.map_map]
    refine List.map_congr_left fun name member => ?_
    rw [Function.comp_apply, outputPath_run]
    exact Job.outputFor_join (fun aim output => aims aim _ output) someInput (shown name member)
  refine ⟨_, collected, ?_⟩
  rw [outputs]
  exact namesApart_of_shown someInput some _ distinct shown

/-- A suffix that goes up: the outputs end in no name, and the drafts do not lie beside them. -/
theorem collected_names_apart_of_way_up :
    let tree := (((FileTree.empty.put ["d".toList] .directory).put ["b.log".toList, "d".toList] (.file [])).put
      ["a.log".toList, "d".toList] (.file [])).put ["out".toList] .directory
    let input : Path := ⟨"d".toList⟩
    let logs : List Path := [⟨"d/a.log".toList⟩, ⟨"d/b.log".toList⟩]
    let outputs : List Path := [⟨"out/a.log/..".toList⟩, ⟨"out/b.log/..".toList⟩]
    ∃ job, Job.ofArguments [] input.text "out".toList "suffix=/..".toList = .ok job ∧ tree.HasFileNames ∧
      tree.leadsToDirectory [] input = true ∧ (∀ aim, job.output = some aim → tree.leadsToDirectory [] aim = true) ∧
      collectLogs (access []) input job.settings.extension tree = (.ok logs, tree) ∧
      logs.map (fun log => (outputPath (access []) job log tree).1) = outputs ∧ NamesApart logs outputs := by
  intro tree input logs outputs
  let settings : Settings := ⟨Pacer.defaultStep, .seconds, "/..".toList, ".log".toList⟩
  let job : Job := ⟨[], input, some ⟨"out".toList⟩, settings⟩
  have built : Job.ofArguments [] input.text "out".toList "suffix=/..".toList = .ok job := rfl
  have named : tree.HasFileNames := by decide +kernel
  have inside : tree.leadsToDirectory [] input = true := by decide +kernel
  have toDirectory : tree.leadsToDirectory [] ⟨"out".toList⟩ = true := by decide +kernel
  have aims : ∀ aim, job.output = some aim → tree.leadsToDirectory [] aim = true := by
    intro aim output
    obtain rfl := Option.some.inj output
    exact toDirectory
  have found : (collectLogs (access []) input job.settings.extension tree).1 = .ok logs := by decide +kernel
  have chosen : logs.map (fun log => (outputPath (access []) job log tree).1) = outputs := by decide +kernel
  obtain ⟨whole, collected, apart⟩ :=
    collected_names_apart job named inside job.settings.extension (fun _ => tree) fun aim _ => aims aim
  rw [collected] at found
  obtain rfl := Except.ok.inj found
  rw [chosen] at apart
  exact ⟨job, built, named, inside, aims, collected, chosen, apart⟩

/-- An output that takes the place of the link by which its directory was come to. -/
example :
    let tree := (FileTree.empty.put ["a.log".toList] (.file [])).put ["a.logx".toList] (.link ⟨".".toList⟩)
    let settings : Settings := ⟨Pacer.defaultStep, .seconds, "x".toList, ".log".toList⟩
    let job : Job := ⟨[], ⟨".".toList⟩, some ⟨"a.logx".toList⟩, settings⟩
    tree.leadsToDirectory [] ⟨"a.logx".toList⟩ = true ∧
      (runJob (access []) job tree).2.leadsToDirectory [] ⟨"a.logx".toList⟩ = false := by decide +kernel

end Cadence
