import Cadence.CommandLine.Program
import Cadence.Proofs.CommandLine.Arguments
import Cadence.Proofs.CommandLine.Environment
import Cadence.Proofs.Conversion.Refusals
import Mathlib.Data.List.Basic

/-!
The program does what its arguments ask for, unless it ends before its journal begins. With arguments that ask for a
conversion it leaves the tree that the conversion under the right options leaves, says nothing and ends with the code
of what came of it, exactly if no variable is to be set to a NUL and no cut in the filter falls inside a character
(`CommandLine.run_as_asked_iff`).
-/

namespace Cadence

open FileTree

/-! ## How runs end -/

section
variable {here : Location}

theorem convertEach_exitCode {job : Job} (positive : 0 < job.settings.step.nanoseconds) (logs : List Path) :
    ∀ {tree after : FileTree} {count : Nat} {failure : Failure},
      convertEach (access here) job count logs tree = (.error failure, after) → failure.exitCode ∈ [65, 66, 74, 78] := by
  induction logs with
  | nil => intro tree after count failure fails; cases fails
  | cons log rest ih =>
    intro tree after count failure fails
    obtain ⟨_, _, is, _⟩ | ⟨_, alone, _, is⟩ | ⟨rows, next, _, _, others⟩ := convertEach_cons_cases fails
    · cases is
      simp [Failure.exitCode]
    · cases is
      have code := convertFile_exitCode positive here log (job.outputFor tree here log) tree (congrArg Prod.fst alone)
      exact List.mem_append_left [78] code
    · exact ih others

/-- A job that the options describe fails with one of the codes that are customary. -/
theorem runJob_exitCode {job : Job} (positive : 0 < job.settings.step.nanoseconds) {tree : FileTree} {failure : Failure}
    (fails : (runJob (access here) job tree).1 = .error failure) : failure.exitCode ∈ [65, 66, 74, 78] := by
  rw [runJob_run] at fails
  cases collected : tree.logsOf here job.input job.settings.extension with
  | error failure =>
    have code := logsOf_exitCode collected
    rw [collected] at fails
    cases fails
    exact List.mem_cons_of_mem 65 (List.mem_append_left [78] code)
  | ok logs =>
    simp only [collected, convertAll_run] at fails
    cases refused : job.refusesLogs tree here logs with
    | some fault =>
      rw [refused] at fails
      cases fails
      simp [Failure.exitCode]
    | none =>
      simp only [refused] at fails
      cases looped : convertEach (access here) job 0 logs tree with
      | mk outcome after =>
        rw [looped] at fails
        cases outcome with
        | error failure =>
          cases fails
          exact convertEach_exitCode positive logs looped
        | ok count => cases fails

end

namespace CommandLine

/-- The conversion that arguments describe: the settings are read, and the job is run if they can be. -/
def conversion (here : Location) (input output options : Text) : StateM FileTree (Except Failure Nat) :=
  match Job.ofArguments programName input output options with
  | .error failure => pure (.error failure)
  | .ok job => runJob (access here) job

def codeOf : Except Failure Nat → Nat
  | .ok _ => 0
  | .error failure => failure.exitCode

theorem codeOf_conversion (here : Location) (input output options : Text) (tree : FileTree) :
    codeOf (conversion here input output options tree).1 ∈ [0, 65, 66, 74, 78] := by
  unfold conversion
  cases accepted : Job.ofArguments programName input output options with
  | error failure =>
    show codeOf (.error failure) ∈ _
    unfold Job.ofArguments at accepted
    split at accepted
    · cases accepted
      simp [codeOf, Failure.exitCode]
    · cases accepted
  | ok job =>
    show codeOf (runJob (access here) job tree).1 ∈ _
    cases ends : (runJob (access here) job tree).1 with
    | error failure =>
      exact List.mem_cons_of_mem 0 (runJob_exitCode (Job.step_pos_of_ofArguments accepted) ends)
    | ok count => exact List.mem_cons_self

end CommandLine

/-! ## The file for the environment -/

namespace FileTree

/-- What a directory has to say about the environment: the content of its file; nothing if there is no such file; and no
content if it cannot be told, or the file cannot be read. -/
def environmentIn? (tree : FileTree) (here directory : Location) : Option Bytes :=
  match tree.isDirectory here (CommandLine.environmentPath directory) with
  | .ok false => some ((tree.contentOf here (CommandLine.environmentPath directory)).toOption.getD [])
  | .ok true => none
  | .error fault => if fault.error.kind = .notFound then none else some []

/-- The content of the nearest file for the environment, in the working directory or above it. -/
def environmentContent (tree : FileTree) (here : Location) : Bytes :=
  (here.tails.findSome? (tree.environmentIn? here)).getD []

end FileTree

namespace CommandLine

@[simp] theorem readEnvironmentFile_run (here : Location) (path : Path) (tree : FileTree) :
    readEnvironmentFile (access here) path tree = ((tree.contentOf here path).toOption.getD [], tree) := by
  unfold readEnvironmentFile contentOf
  cases located : tree.locate here path with
  | error fault => simp [located, looked, Except.bind, Except.toOption]
  | ok location =>
    cases read : tree.contentAt location <;> simp [located, read, looked, Except.bind, Except.toOption]

theorem atDirectory_run (here directory : Location) {above : StateM FileTree Bytes} {tree : FileTree} {content : Bytes}
    (looks : above tree = (content, tree)) :
    nearestEnvironmentFile.atDirectory (access here) directory above tree =
      ((tree.environmentIn? here directory).getD content, tree) := by
  unfold nearestEnvironmentFile.atDirectory environmentIn?
  cases entered : tree.isDirectory here (environmentPath directory) with
  | error fault => by_cases missing : fault.error.kind = .notFound <;> simp [entered, looked, missing, looks]
  | ok isDirectory => cases isDirectory <;> simp [entered, looked, looks]

@[simp] theorem nearestEnvironmentFile_run (here : Location) (tree : FileTree) (directory : Location) :
    nearestEnvironmentFile (access here) directory tree =
      ((directory.tails.findSome? (tree.environmentIn? here)).getD [], tree) := by
  induction directory with
  | nil =>
    have nothing : (pure [] : StateM FileTree Bytes) tree = ([], tree) := rfl
    rw [nearestEnvironmentFile, atDirectory_run here [] nothing, List.tails, List.findSome?_singleton]
  | cons name parent ih =>
    rw [nearestEnvironmentFile, atDirectory_run here _ ih, List.tails, List.findSome?_cons]
    cases tree.environmentIn? here (name :: parent) <;> rfl

/-! ## The program -/

/-- The value of a variable in a run: the one that it is given, or else the one of its first assignment in the nearest
file for the environment. -/
def settled? (environment : Environment) (tree : FileTree) (here : Location) (name : Text) : Option Text :=
  environment.settled? (Lines.stretches (tree.environmentContent here)) name

/-- The options of a run: those of the arguments, or else the value of their variable, or else none. -/
def optionsFor (environment : Environment) (tree : FileTree) (here : Location) (options : Option Text) : Text :=
  (options.or (settled? environment tree here optionsVariable)).getD []

/-- The program ends before its journal begins: the nearest file for the environment sets a variable to a NUL, or a cut
in the filter that is set falls inside a character. -/
def Aborts (environment : Environment) (tree : FileTree) (here : Location) : Prop :=
  environment.SetsNul (Lines.stretches (tree.environmentContent here)) ∨
    ∃ filter, settled? environment tree here filterVariable = some filter ∧ Filter.read filter = .error .torn

/-- A run leaves the tree that the conversion leaves, says nothing and ends with the code of what came of it, which is
one of those that are customary. -/
def DoesAs (conversion : Except Failure Nat × FileTree) (run : Report × FileTree) : Prop :=
  run.2 = conversion.2 ∧ run.1.output = [] ∧ run.1.exitCode = codeOf conversion.1 ∧ run.1.exitCode ∈ [0, 65, 66, 74, 78]

theorem convert_doesAs (here : Location) (keepsErrors : Bool) (input output options : Text) (tree : FileTree) :
    DoesAs (conversion here input output options tree) (convert (access here) keepsErrors input output options tree) := by
  have codes := codeOf_conversion here input output options tree
  unfold conversion at codes ⊢
  unfold convert
  cases accepted : Job.ofArguments programName input output options with
  | error failure =>
    rw [accepted] at codes
    exact ⟨rfl, rfl, rfl, codes⟩
  | ok job =>
    simp only [accepted, bind, StateT.bind] at codes ⊢
    cases ends : runJob (access here) job tree with
    | mk outcome after =>
      rw [ends] at codes
      cases outcome with
      | error failure => exact ⟨rfl, rfl, rfl, codes⟩
      | ok count => exact ⟨rfl, rfl, rfl, codes⟩

theorem run_run (here : Location) (environment : Environment) (arguments : List Text) (tree : FileTree) :
    run (access here) environment arguments tree =
      match environment.loadFile (tree.environmentContent here) with
      | none => (.aborted, tree)
      | some loaded => match Journal.letsErrorsThrough? (loaded.value? filterVariable) with
        | none => (.aborted, tree)
        | some keepsErrors => runIn (access here) loaded keepsErrors arguments tree := by
  simp only [run, bind_run, access_workingDirectory, nearestEnvironmentFile_run]
  rw [environmentContent]
  cases environment.loadFile ((here.tails.findSome? (tree.environmentIn? here)).getD []) with
  | none => rfl
  | some loaded =>
    simp only
    cases Journal.letsErrorsThrough? (loaded.value? filterVariable) <;> rfl

theorem letsErrorsThrough?_eq_none_iff (filter : Option Text) : Journal.letsErrorsThrough? filter = none ↔
    ∃ text, filter = some text ∧ Filter.read text = .error .torn := by
  cases filter with
  | none => simp [Journal.letsErrorsThrough?]
  | some text =>
    simp only [Journal.letsErrorsThrough?, Option.some.injEq, exists_eq_left']
    cases Filter.read text with
    | error fault => cases fault <;> simp
    | ok filter => simp

-- the white space in front has three bytes, and the cut behind the first byte is to part the target from the level
example : Journal.letsErrorsThrough? (some "\u3000a=off".toList) = none := by decide +kernel

/-- All that a run can come to: it ends before its journal begins, or it does what the arguments ask for in an environment
where the options have settled. -/
theorem run_cases (here : Location) (environment : Environment) (arguments : List Text) (tree : FileTree) :
    (Aborts environment tree here ∧ run (access here) environment arguments tree = (.aborted, tree)) ∨
      ∃ loaded keepsErrors, ¬ Aborts environment tree here ∧
        run (access here) environment arguments tree = runIn (access here) loaded keepsErrors arguments tree ∧
        loaded.value? optionsVariable = settled? environment tree here optionsVariable := by
  have optionsNamed : Environment.IsName optionsVariable := ⟨by decide, by decide⟩
  have filterNamed : Environment.IsName filterVariable := ⟨by decide, by decide⟩
  rw [run_run, Environment.loadFile]
  obtain ⟨sets, ends⟩ | ⟨loaded, spares, loads, settled⟩ :=
    environment.load_cases (Lines.stretches (tree.environmentContent here))
  · rw [ends]
    exact .inl ⟨.inl sets, rfl⟩
  · simp only [loads]
    have filter : loaded.value? filterVariable = settled? environment tree here filterVariable := settled _ filterNamed
    cases journal : Journal.letsErrorsThrough? (loaded.value? filterVariable) with
    | none =>
      rw [letsErrorsThrough?_eq_none_iff, filter] at journal
      exact .inl ⟨.inr journal, rfl⟩
    | some keepsErrors =>
      refine .inr ⟨loaded, keepsErrors, ?_, rfl, settled _ optionsNamed⟩
      rintro (sets | torn)
      · exact spares sets
      · rw [← filter, ← letsErrorsThrough?_eq_none_iff, journal] at torn
        cases torn

theorem effectiveOptions_eq {loaded environment : Environment} {tree : FileTree} {here : Location}
    (settled : loaded.value? optionsVariable = settled? environment tree here optionsVariable) (options : Option Text) :
    effectiveOptions loaded options = optionsFor environment tree here options := by
  rw [effectiveOptions, optionsFor, Environment.value, settled]
  cases options <;> rfl

/-- With arguments that ask for a conversion, the program does what the conversion under the options that count does,
exactly if it does not end before its journal begins; and there it changes nothing. -/
theorem run_as_asked_iff (here : Location) (tree : FileTree) (environment : Environment) (arguments : List Text)
    (input : Text) (output options : Option Text) (asks : Ask arguments input output options) :
    let chosen := optionsFor environment tree here options
    let ran := run (access here) environment arguments tree
    (DoesAs (conversion here input (output.getD []) chosen tree) ran ↔ ¬ Aborts environment tree here) ∧
      (Aborts environment tree here → ran = (.aborted, tree)) := by
  intro chosen ran
  obtain ⟨aborts, ends⟩ | ⟨loaded, keepsErrors, spares, goesOn, settled⟩ := run_cases here environment arguments tree
  · have noCode : Report.aborted.exitCode ∉ [0, 65, 66, 74, 78] := by decide
    refine ⟨iff_of_false ?_ (not_not_intro aborts), fun _ => ends⟩
    rintro ⟨_, _, _, code⟩
    rw [show ran = (.aborted, tree) from ends] at code
    exact noCode code
  · have converts : ran = convert (access here) keepsErrors input (output.getD []) chosen tree := by
      rw [show ran = _ from goesOn, runIn, Request.ofArguments_eq_convert_iff.mpr asks]
      simp only [effectiveOptions_eq settled]
      rfl
    refine ⟨iff_of_true ?_ spares, fun aborts => absurd aborts spares⟩
    rw [converts]
    exact convert_doesAs here keepsErrors input (output.getD []) chosen tree

/-- A run with an output and options of its own, beside a file for the environment that sets other options. -/
theorem run_as_asked_iff_of_two_arguments :
    let tree := ((FileTree.empty.put ["debug.log".toList]
      (.file (Utf8.encode "2018-08-13 02:00:00 height=1 v\n".toList))).put [".env".toList]
      (.file (Utf8.encode "SYNCTIME_OPTIONS=interval=1m\n".toList)))
    let arguments := ["--output".toList, "out.csv".toList, "--options=elapsed=duration".toList, "debug.log".toList]
    let chosen := optionsFor [] tree [] (some "elapsed=duration".toList)
    Ask arguments "debug.log".toList (some "out.csv".toList) (some "elapsed=duration".toList) ∧
      chosen = "elapsed=duration".toList ∧ ¬ Aborts [] tree [] ∧
      DoesAs (conversion [] "debug.log".toList "out.csv".toList chosen tree) (run (access []) [] arguments tree) := by
  intro tree arguments chosen
  have asks : Ask arguments "debug.log".toList (some "out.csv".toList) (some "elapsed=duration".toList) :=
    Request.ofArguments_eq_convert_iff.mp (by decide +kernel)
  have assigned : Environment.assignments [] (Lines.stretches (tree.environmentContent [])) =
      [("SYNCTIME_OPTIONS".toList, "interval=1m".toList)] := by decide +kernel
  have noFilter : settled? [] tree [] filterVariable = none := by decide +kernel
  clear_value tree arguments
  have spares : ¬ Aborts [] tree [] := by
    rintro (⟨name, value, _, found, nul⟩ | ⟨filter, isSet, _⟩)
    · rw [assigned, Environment.lookup_assignment, List.lookup_nil, Option.or_none] at found
      split at found
      · cases found
        exact absurd nul (by decide)
      · cases found
    · rw [noFilter] at isSet
      cases isSet
  exact ⟨asks, rfl, spares, (run_as_asked_iff [] tree [] arguments "debug.log".toList _ _ asks).1.mpr spares⟩

/-- A file for the environment that sets any variable to a NUL ends the program, and the log is not converted. -/
theorem run_aborts_at_nul :
    let tree := ((FileTree.empty.put ["debug.log".toList]
      (.file (Utf8.encode "2018-08-13 02:00:00 height=1 v\n".toList))).put [".env".toList]
      (.file (Utf8.encode "A=\x00\n".toList)))
    let table := Utf8.encode "date,elapsed time,height\n2018-08-13 02:00:00,0,1\n".toList
    let asked := conversion [] "debug.log".toList [] (optionsFor [] tree [] none) tree
    let ran := run (access []) [] ["debug.log".toList] tree
    Ask ["debug.log".toList] "debug.log".toList none none ∧
      asked.1 = .ok 1 ∧ asked.2.entryAt ["debug.log.csv".toList] = some (.file table) ∧
      ran.1.exitCode = 101 ∧ ran.2.entryAt ["debug.log.csv".toList] = none ∧ ¬ DoesAs asked ran := by
  intro tree table asked ran
  have code : ran.1.exitCode = 101 := by decide +kernel
  refine ⟨Request.ofArguments_eq_convert_iff.mp (by decide +kernel), by decide +kernel, by decide +kernel, code,
    by decide +kernel, ?_⟩
  rintro ⟨_, _, _, customary⟩
  rw [code] at customary
  exact absurd customary (by decide)

end CommandLine

end Cadence
