import Cadence.Conversion

/-!
The programs of a run on a tree held in memory, with the state passed on by hand. Choosing outputs, comparing
paths and collecting logs only look at the tree (`outputPath_run`, `isSameFile_run`, `collectLogs_run`); what a
conversion does to it is told by the equations for `writeOutput` and `convertFile`.
-/

namespace Cadence

open FileTree

/-- A directory stands at the path, links followed. -/
def FileTree.leadsToDirectory (tree : FileTree) (here : Location) (path : Path) : Bool :=
  match tree.locate here path with
  | .error _ => false
  | .ok location => tree.isDirectoryAt location

theorem FileTree.leadsToDirectory_iff {tree : FileTree} {here : Location} {path : Path} :
    tree.leadsToDirectory here path = true ↔
      ∃ location, tree.locate here path = .ok location ∧ tree.isDirectoryAt location = true := by
  unfold leadsToDirectory
  cases tree.locate here path <;> simp

/-- A file stands at the path, links followed. -/
def FileTree.leadsToFile (tree : FileTree) (here : Location) (path : Path) : Bool :=
  match tree.locate here path with
  | .error _ => false
  | .ok location => tree.isFileAt location

/-- The logs that an input stands for, as the tree is. -/
def FileTree.logsOf (tree : FileTree) (here : Location) (input : Path) (extension : Text) :
    Except Failure (List Path) :=
  match tree.isDirectory here input with
  | .error fault => .error (.opening input fault.error)
  | .ok false => .ok [input]
  | .ok true => match tree.list here input with
    | .error fault => .error (.opening input fault.error)
    | .ok names =>
      let logs := names.filter fun name =>
        hasLogName extension name && tree.leadsToFile here (input.join ⟨name⟩)
      .ok ((sortBy id logs).map fun name => input.join ⟨name⟩)

/-- The output of a log, as the tree is. -/
def Job.outputFor (job : Job) (tree : FileTree) (here : Location) (log : Path) : Path :=
  match job.output with
  | none => log.extended job.settings.suffix
  | some output =>
    if tree.leadsToDirectory here output then Path.outputInside output log job.settings.suffix else output

/-- The paths lead to the same file or, where one of them leads nowhere, are the same as written. -/
def FileTree.leadToSame (tree : FileTree) (here : Location) (first second : Path) : Bool :=
  match tree.canonical here first, tree.canonical here second with
  | .ok a, .ok b => a = b
  | _, _ => first.isSameAsWritten second

variable (here : Location) (tree : FileTree)

/-! ## Single operations -/

@[simp] theorem bind_run {α β : Type} (first : StateM FileTree α) (next : α → StateM FileTree β) :
    (first >>= next) tree = next (first tree).1 (first tree).2 := rfl

@[simp] theorem map_run {α β : Type} (f : α → β) (program : StateM FileTree α) :
    (f <$> program) tree = (f (program tree).1, (program tree).2) := rfl

@[simp] theorem pure_run {α : Type} (value : α) : (pure value : StateM FileTree α) tree = (value, tree) := rfl

section
variable (path : Path)

@[simp] theorem access_isDirectory :
    (access here).isDirectory path tree = (looked (tree.isDirectory here path), tree) := rfl

@[simp] theorem access_isFile : (access here).isFile path tree = (looked (tree.isFile here path), tree) := rfl

@[simp] theorem access_list : (access here).list path tree = (looked (tree.list here path), tree) := rfl

@[simp] theorem access_canonical : (access here).canonical path tree = (looked (tree.canonical here path), tree) := rfl

@[simp] theorem access_openFile : (access here).openFile path tree = (looked (tree.locate here path), tree) := rfl

@[simp] theorem access_remove :
    (access here).remove path tree = tree.changed (tree.remove here path) := rfl

@[simp] theorem access_read (location : Location) :
    (access here).read location tree = (looked (tree.contentAt location), tree) := rfl

@[simp] theorem access_workingDirectory : (access here).workingDirectory tree = (here, tree) := rfl

end

/-! ## Looking -/

@[simp] theorem isDirectoryAt_run (path : Path) :
    isDirectoryAt (access here) path tree = (tree.leadsToDirectory here path, tree) := by
  cases located : tree.locate here path <;>
    simp [isDirectoryAt, FileTree.isDirectory, leadsToDirectory, located, looked, Except.map]

@[simp] theorem isFileAt_run (path : Path) :
    isFileAt (access here) path tree = (tree.leadsToFile here path, tree) := by
  cases located : tree.locate here path <;>
    simp [isFileAt, FileTree.isFile, leadsToFile, located, looked, Except.map]

@[simp] theorem outputPath_run (job : Job) (log : Path) :
    outputPath (access here) job log tree = (job.outputFor tree here log, tree) := by
  unfold outputPath Job.outputFor
  cases job.output with
  | none => rfl
  | some output => cases inside : tree.leadsToDirectory here output <;> simp [inside]

@[simp] theorem isSameFile_run (first second : Path) :
    isSameFile (access here) first second tree = (tree.leadToSame here first second, tree) := by
  cases place : tree.canonical here first <;> cases other : tree.canonical here second <;>
    simp [isSameFile, leadToSame, place, other, looked]

@[simp] theorem logNames_run (directory : Path) (extension : Text) (names : List Text) :
    logNames (access here) directory extension names tree =
      (names.filter fun name => hasLogName extension name && tree.leadsToFile here (directory.join ⟨name⟩), tree) := by
  induction names with
  | nil => rfl
  | cons name rest ih =>
    by_cases named : hasLogName extension name = true
    · cases leads : tree.leadsToFile here (directory.join ⟨name⟩) <;> simp [logNames, ih, named, leads]
    · simp [logNames, ih, named]

@[simp] theorem collectLogs_run (input : Path) (extension : Text) :
    collectLogs (access here) input extension tree = (tree.logsOf here input extension, tree) := by
  unfold collectLogs logsOf
  cases inside : tree.isDirectory here input with
  | error fault => simp [inside, looked]
  | ok directory =>
    cases directory with
    | false => simp [inside, looked]
    | true => cases listed : tree.list here input <;> simp [inside, listed, looked]

/-! ## Converting -/

@[simp] theorem writeOutput_run (settings : Settings) (log output : Path) (source : Location) :
    writeOutput (access here) settings log output source tree =
      match tree.create here output.draft with
      | .error fault => (.error (.io output.draft fault.error), tree)
      | .ok (draft, made) =>
        let (outcome, sink) := settings.convertLines log output.draft
          (Settings.linesRead (looked (made.contentAt source))) .unlimited
        let written := made.setContent draft sink.taken
        match outcome with
        | .error failure => (.error failure, written)
        | .ok count => match written.rename here output.draft output with
          | .error fault => (.error (.io output fault.error), written)
          | .ok after => (.ok count, after) := by
  unfold writeOutput
  simp only [access, bind_run]
  cases tree.create here output.draft with
  | error fault => rfl
  | ok made =>
    obtain ⟨draft, made⟩ := made
    simp only [bind_run]
    cases (settings.convertLines log output.draft
      (Settings.linesRead (looked (made.contentAt source))) .unlimited).1 with
    | error failure => rfl
    | ok count =>
      simp only [changed, bind_run]
      cases (made.setContent draft (settings.convertLines log output.draft
        (Settings.linesRead (looked (made.contentAt source))) .unlimited).2.taken).rename here output.draft output <;> rfl

/-- The tree without what stands at the path, if that can be removed. -/
def FileTree.removedAt (tree : FileTree) (here : Location) (path : Path) : FileTree :=
  match tree.remove here path with
  | .error _ => tree
  | .ok after => after

@[simp] theorem convertFile_run (settings : Settings) (log output : Path) :
    convertFile (access here) settings log output tree =
      match tree.locate here log with
      | .error fault => (.error (.opening log fault.error), tree)
      | .ok source => match writeOutput (access here) settings log output source tree with
        | (.ok count, after) => (.ok count, after)
        | (.error .overflow, after) => (.error .overflow, after)
        | (.error failure, after) => (.error failure, after.removedAt here output.draft) := by
  unfold convertFile
  cases located : tree.locate here log with
  | error fault => simp [located, looked]
  | ok source =>
    simp only [bind_run, access_openFile, located, looked]
    rcases writeOutput (access here) settings log output source tree with ⟨outcome, after⟩
    cases outcome with
    | ok count => rfl
    | error failure =>
      have removed : ((access here).remove output.draft after).2 = after.removedAt here output.draft := by
        rw [access_remove]
        unfold removedAt changed
        cases after.remove here output.draft <;> rfl
      cases failure with
      | overflow => rfl
      | _ => exact congrArg _ removed

/-! ## Several logs -/

@[simp] theorem convertEach_cons_run (job : Job) (count : Nat) (log : Path) (rest : List Path) :
    convertEach (access here) job count (log :: rest) tree =
      if tree.leadToSame here log (job.outputFor tree here log) then
        (.error (.settings (.outputReplacesLog (job.outputFor tree here log))), tree)
      else match convertFile (access here) job.settings log (job.outputFor tree here log) tree with
        | (.error failure, after) => (.error failure, after)
        | (.ok rows, after) => convertEach (access here) job (count + rows) rest after := by
  by_cases same : tree.leadToSame here log (job.outputFor tree here log) = true
  · simp [convertEach, same]
  · simp only [convertEach, bind_run, outputPath_run, isSameFile_run, if_neg same]
    rcases convertFile (access here) job.settings log (job.outputFor tree here log) tree with ⟨outcome, after⟩
    cases outcome <;> rfl

/-- Several logs are refused an output that is no directory. -/
def Job.refusesLogs (job : Job) (tree : FileTree) (here : Location) (logs : List Path) : Option SettingsFault :=
  match job.output with
  | none => none
  | some output =>
    if 1 < logs.length ∧ tree.leadsToDirectory here output = false then some (.outputNotDirectory output logs.length)
    else none

@[simp] theorem convertAll_run (job : Job) (logs : List Path) :
    convertAll (access here) job logs tree =
      match job.refusesLogs tree here logs with
      | some fault => (.error (.settings fault), tree)
      | none => convertEach (access here) job 0 logs tree := by
  unfold convertAll Job.refusesLogs
  cases job.output with
  | none => rfl
  | some output =>
    by_cases several : 1 < logs.length
    · cases inside : tree.leadsToDirectory here output <;> simp [several, inside]
    · simp [several]

@[simp] theorem runJob_run (job : Job) :
    runJob (access here) job tree =
      match tree.logsOf here job.input job.settings.extension with
      | .error failure => (.error failure, tree)
      | .ok logs => match convertAll (access here) job logs tree with
        | (.error failure, after) => (.error failure, after)
        | (.ok _, after) => (.ok logs.length, after) := by
  unfold runJob
  cases collected : tree.logsOf here job.input job.settings.extension with
  | error failure => simp [collected]
  | ok logs =>
    simp only [bind_run, collectLogs_run, collected]
    rcases convertAll (access here) job logs tree with ⟨outcome, after⟩
    cases outcome <;> rfl

end Cadence
