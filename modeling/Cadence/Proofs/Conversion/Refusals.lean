import Cadence.Proofs.Conversion.KeptLogs

/-!
Calls that a fault of the settings ends. Several logs are refused an output that is no directory before anything is
done. An output that is the log itself is refused where the loop comes to it, when the logs before it have been
converted, and all that has changed by then is where those conversions act (`settingsFault_keeps_iff`). So a run over a
directory may leave tables behind although its settings are at fault (`run_converts_before_refusal`).
-/

namespace Cadence

open FileTree

/-- A call on given logs, or a run that collects its logs itself. -/
def Job.call (job : Job) (here : Location) (given : Option (List Path)) : StateM FileTree (Except Failure Nat) :=
  match given with
  | some logs => convertAll (access here) job logs
  | none => runJob (access here) job

/-- The logs that a call is about. -/
def Job.calledOn (job : Job) (here : Location) (given : Option (List Path)) (tree : FileTree) :
    Except Failure (List Path) :=
  match given with
  | some logs => .ok logs
  | none => (collectLogs (access here) job.input job.settings.extension tree).1

/-- The places that conversions act on, each in the tree that it finds. -/
def Job.touchedBy (job : Job) (here : Location) (conversions : List (Path × FileTree)) : List Location :=
  conversions.flatMap fun (log, tree) => job.settings.touched here tree log (job.outputFor tree here log)

/-- A table stands at the place, or a link to one as its draft was. -/
def FileTree.HoldsOutput (tree : FileTree) (place : Location) : Prop :=
  (∃ table, tree.entryAt place = some (.file table) ∧ Csv.IsTable table) ∨ ∃ target, tree.entryAt place = some (.link target)

/-- A fault of the settings ends a call on logs: the logs `done` are converted, which leaves the tree `after` with the
output of the last of them, and then the fault is met, before any of them or at the first of the rest, as its output
leads to it. -/
structure Job.RefusedAfter (job : Job) (here : Location) (tree : FileTree) (logs : List Path) (fault : SettingsFault)
    (after : FileTree) (done rest : List Path) : Prop where
  parts : logs = done ++ rest
  begun : (job.begun here logs tree).map Prod.fst = done
  converted : ∃ count, convertEach (access here) job 0 done tree = (.ok count, after)
  written : ∀ log before, (job.begun here logs tree).getLast? = some (log, before) →
    ∃ place, before.ownPlace? here (job.outputFor before here log) = some place ∧ after.HoldsOutput place
  refused : (done = [] ∧ job.refusesLogs tree here logs = some fault) ∨
    ∃ log, rest.head? = some log ∧ after.leadToSame here log (job.outputFor after here log) = true ∧
      fault = .outputReplacesLog (job.outputFor after here log)

/-! ## Where faults of the settings come from -/

theorem Failure.opening_exitCode (path : Path) (cause : IoError) : (opening path cause).exitCode ∈ [66, 74] := by
  unfold opening
  split
  · exact List.mem_cons_self
  · exact List.mem_cons_of_mem _ List.mem_cons_self

section
variable {here : Location} {tree : FileTree}

/-- The conversion of a log fails with the code for a missing input, for bad data or for an error of a file. -/
theorem convertFile_exitCode {settings : Settings} (positive : 0 < settings.step.nanoseconds) (here : Location)
    (log output : Path) (tree : FileTree) {failure : Failure}
    (fails : (convertFile (access here) settings log output tree).1 = .error failure) :
    failure.exitCode ∈ [65, 66, 74] := by
  rw [convertFile_run] at fails
  cases located : tree.locate here log with
  | error cause =>
    rw [located] at fails
    cases fails
    exact List.mem_cons_of_mem _ (Failure.opening_exitCode log cause.error)
  | ok source =>
    simp only [located, writeOutput_run] at fails
    cases created : tree.create here output.draft with
    | error cause =>
      rw [created] at fails
      cases fails
      simp [Failure.exitCode]
    | ok made =>
      obtain ⟨place, made⟩ := made
      simp only [created] at fails
      have ending := Settings.outcome_cases positive log output.draft (looked (made.contentAt source)) rfl
      generalize settings.convertLines log output.draft (Settings.linesRead (looked (made.contentAt source))) .unlimited =
        result at ending fails
      obtain ⟨outcome, sink⟩ := result
      obtain ⟨count, rfl⟩ | ⟨number, stamp, rfl⟩ | ⟨cause, rfl⟩ := ending
      · simp only at fails
        cases renamed : (made.setContent place sink.taken).rename here output.draft output with
        | error cause =>
          rw [renamed] at fails
          cases fails
          simp [Failure.exitCode]
        | ok after =>
          rw [renamed] at fails
          cases fails
      · cases fails
        simp [Failure.exitCode]
      · cases fails
        simp [Failure.exitCode]

theorem convertFile_ne_settings {settings : Settings} (positive : 0 < settings.step.nanoseconds) (here : Location)
    (log output : Path) (tree : FileTree) (fault : SettingsFault) :
    (convertFile (access here) settings log output tree).1 ≠ .error (.settings fault) :=
  fun fails => absurd (convertFile_exitCode positive here log output tree fails) (by simp [Failure.exitCode])

theorem convertFile_output {settings : Settings} (positive : 0 < settings.step.nanoseconds) {log output : Path}
    {rows : Nat} {after : FileTree} (converted : convertFile (access here) settings log output tree = (.ok rows, after)) :
    ∃ place, tree.ownPlace? here output = some place ∧ after.HoldsOutput place := by
  obtain ⟨⟨fault, located⟩, _⟩ | ⟨⟨source, located⟩,
      ⟨⟨fault, created⟩, _⟩ | ⟨place, made, table, created, writes, ending⟩⟩ :=
    convertFile_cases positive log output converted
  · rw [convertFile_run, located] at converted
    cases converted
  · simp only [convertFile_run, located, writeOutput_run, created] at converted
    cases converted
  · obtain ⟨⟨failure, counts⟩, _⟩ | ⟨_, renamed⟩ := ending
    · cases counts
    · obtain ⟨_, new, entry, draft, target, _, _, drafted, other, moved⟩ := renamedDraft_eq_ok created renamed
      refine ⟨new, ownPlace?_of_made created target, ?_⟩
      have renewed : after.entryAt new = some entry := by rw [moved, if_pos rfl]
      cases entry with
      | directory => exact absurd rfl other
      | file written => exact .inl ⟨written, renewed, (writes_of_drafted created writes draft drafted).isTable positive⟩
      | link path => exact .inr ⟨path, renewed⟩

theorem FileTree.logsOf_exitCode {tree : FileTree} {input : Path} {extension : Text} {failure : Failure}
    (fails : tree.logsOf here input extension = .error failure) : failure.exitCode ∈ [66, 74] := by
  unfold logsOf at fails
  split at fails
  · cases fails
    exact Failure.opening_exitCode _ _
  · cases fails
  · split at fails
    · cases fails
      exact Failure.opening_exitCode _ _
    · cases fails

/-- A call that a fault of the settings ends is about logs, and the loop over them ends so. -/
theorem Job.convertAll_of_call {job : Job} {given : Option (List Path)} {after : FileTree} {fault : SettingsFault}
    (ends : job.call here given tree = (.error (.settings fault), after)) :
    ∃ logs, job.calledOn here given tree = .ok logs ∧
      convertAll (access here) job logs tree = (.error (.settings fault), after) := by
  cases given with
  | some logs => exact ⟨logs, rfl, ends⟩
  | none =>
    rw [call, runJob_run] at ends
    rw [calledOn, collectLogs_run]
    cases collected : tree.logsOf here job.input job.settings.extension with
    | error failure =>
      rw [collected] at ends
      cases ends
      exact absurd (logsOf_exitCode collected) (by simp [Failure.exitCode])
    | ok logs =>
      simp only [collected] at ends
      refine ⟨logs, rfl, ?_⟩
      generalize convertAll (access here) job logs tree = result at ends ⊢
      obtain ⟨outcome, next⟩ := result
      cases outcome with
      | error failure => exact ends
      | ok count => cases ends

end

/-! ## The loop -/

section
variable {job : Job} {here : Location} {tree after next : FileTree} {log : Path} {rows : Nat}

theorem convertEach_cons_of_ok (apart : ¬ tree.leadToSame here log (job.outputFor tree here log) = true)
    (converted : convertFile (access here) job.settings log (job.outputFor tree here log) tree = (.ok rows, next))
    (count : Nat) (rest : List Path) :
    convertEach (access here) job count (log :: rest) tree = convertEach (access here) job (count + rows) rest next ∧
      job.conversions here (log :: rest) tree = (log, tree) :: job.conversions here rest next := by
  rw [convertEach_cons_run, Job.conversions, if_neg apart, if_neg apart, converted]
  exact ⟨rfl, rfl⟩

/-- All that the loop can come to at a log: it is refused, its conversion fails, or the loop goes on. -/
theorem convertEach_cons_cases {count : Nat} {rest : List Path} {outcome : Except Failure Nat}
    (looped : convertEach (access here) job count (log :: rest) tree = (outcome, after)) :
    (tree.leadToSame here log (job.outputFor tree here log) = true ∧ job.conversions here (log :: rest) tree = [] ∧
      outcome = .error (.settings (.outputReplacesLog (job.outputFor tree here log))) ∧ after = tree) ∨
    (∃ failure, convertFile (access here) job.settings log (job.outputFor tree here log) tree = (.error failure, after) ∧
      job.conversions here (log :: rest) tree = [(log, tree)] ∧ outcome = .error failure) ∨
    ∃ rows next, ¬ tree.leadToSame here log (job.outputFor tree here log) = true ∧
      convertFile (access here) job.settings log (job.outputFor tree here log) tree = (.ok rows, next) ∧
      convertEach (access here) job (count + rows) rest next = (outcome, after) := by
  rw [convertEach_cons_run] at looped
  rw [Job.conversions]
  by_cases same : tree.leadToSame here log (job.outputFor tree here log) = true
  · rw [if_pos same] at looped
    cases looped
    exact .inl ⟨same, if_pos same, rfl, rfl⟩
  · right
    rw [if_neg same] at looped ⊢
    cases converted : convertFile (access here) job.settings log (job.outputFor tree here log) tree with
    | mk result next =>
      rw [converted] at looped
      cases result with
      | error failure =>
        cases looped
        exact .inl ⟨failure, rfl, rfl, rfl⟩
      | ok rows => exact .inr ⟨rows, next, same, rfl, looped⟩

end

section
variable {job : Job} {here : Location}

/-- Logs that are converted to the last are all begun, and the loop goes on from the tree that they leave. -/
theorem convertEach_append (done rest : List Path) : ∀ {tree after : FileTree} {count total : Nat},
    convertEach (access here) job count done tree = (.ok total, after) →
      convertEach (access here) job count (done ++ rest) tree = convertEach (access here) job total rest after ∧
      job.conversions here (done ++ rest) tree = job.conversions here done tree ++ job.conversions here rest after ∧
      (job.conversions here done tree).map Prod.fst = done := by
  induction done with
  | nil =>
    intro tree after count total converted
    cases converted
    exact ⟨rfl, rfl, rfl⟩
  | cons log done ih =>
    intro tree after count total converted
    obtain ⟨_, _, ends, _⟩ | ⟨_, _, _, ends⟩ | ⟨rows, next, apart, alone, others⟩ := convertEach_cons_cases converted
    · cases ends
    · cases ends
    · obtain ⟨onward, begun, all⟩ := ih others
      obtain ⟨goesOn, begins⟩ := convertEach_cons_of_ok apart alone count (done ++ rest)
      obtain ⟨_, listed⟩ := convertEach_cons_of_ok apart alone count done
      refine ⟨goesOn.trans onward, ?_, ?_⟩
      · rw [List.cons_append, begins, begun, listed, List.cons_append]
      · rw [listed, List.map_cons, all]

/-- The last of the conversions that the loop begins leaves the tree that the loop leaves. -/
theorem conversions_getLast? (done : List Path) : ∀ {tree after before : FileTree} {count total : Nat} {log : Path},
    convertEach (access here) job count done tree = (.ok total, after) →
      (job.conversions here done tree).getLast? = some (log, before) →
      ∃ rows, convertFile (access here) job.settings log (job.outputFor before here log) before = (.ok rows, after) := by
  induction done with
  | nil => intro tree after before count total log converted last; cases last
  | cons first rest ih =>
    intro tree after before count total log converted last
    obtain ⟨_, _, ends, _⟩ | ⟨_, _, _, ends⟩ | ⟨rows, next, apart, alone, others⟩ := convertEach_cons_cases converted
    · cases ends
    · cases ends
    · rw [(convertEach_cons_of_ok apart alone count rest).2] at last
      have begun := (convertEach_append rest [] others).2.2
      cases listed : job.conversions here rest next with
      | nil =>
        rw [listed] at begun last
        cases begun
        cases others
        cases last
        exact ⟨rows, alone⟩
      | cons pair pairs =>
        rw [listed, List.getLast?_cons_cons, ← listed] at last
        exact ih others last

theorem convertEach_frame (positive : 0 < job.settings.step.nanoseconds) (logs : List Path) :
    ∀ {tree after : FileTree} {count : Nat} {outcome : Except Failure Nat},
      convertEach (access here) job count logs tree = (outcome, after) →
      Frame (job.touchedBy here (job.conversions here logs tree)) tree after := by
  induction logs with
  | nil =>
    intro tree after count outcome looped
    cases looped
    exact .refl _ tree
  | cons log rest ih =>
    intro tree after count outcome looped
    have first : Frame (job.settings.touched here tree log (job.outputFor tree here log)) tree _ :=
      convertFile_frame positive log (job.outputFor tree here log)
    obtain ⟨_, _, _, rfl⟩ | ⟨_, alone, begun, _⟩ | ⟨rows, next, apart, alone, others⟩ := convertEach_cons_cases looped
    · exact .refl _ _
    · rw [alone] at first
      rw [begun]
      exact first.mono (List.subset_append_left _ _)
    · rw [alone] at first
      rw [(convertEach_cons_of_ok apart alone count rest).2, Job.touchedBy, List.flatMap_cons]
      exact (first.mono (List.subset_append_left _ _)).trans ((ih others).mono (List.subset_append_right _ _))

/-- A fault of the settings ends the loop at a log that its output leads to, when all logs before it are converted. -/
theorem convertEach_eq_settings (positive : 0 < job.settings.step.nanoseconds) (logs : List Path) :
    ∀ {tree after : FileTree} {count : Nat} {fault : SettingsFault},
      convertEach (access here) job count logs tree = (.error (.settings fault), after) →
        ∃ done log rest total, logs = done ++ log :: rest ∧
          convertEach (access here) job count done tree = (.ok total, after) ∧
          after.leadToSame here log (job.outputFor after here log) = true ∧
          fault = .outputReplacesLog (job.outputFor after here log) := by
  induction logs with
  | nil => intro tree after count fault ends; cases ends
  | cons log rest ih =>
    intro tree after count fault ends
    obtain ⟨same, _, is, rfl⟩ | ⟨_, alone, _, is⟩ | ⟨rows, next, apart, alone, others⟩ := convertEach_cons_cases ends
    · cases is
      exact ⟨[], log, rest, count, rfl, rfl, same, rfl⟩
    · cases is
      have noFault := convertFile_ne_settings positive here log (job.outputFor tree here log) tree fault
      rw [alone] at noFault
      exact absurd rfl noFault
    · obtain ⟨done, refused, behind, total, rfl, front, leads, is⟩ := ih others
      exact ⟨log :: done, refused, behind, total, rfl,
        (convertEach_cons_of_ok apart alone count done).1.trans front, leads, is⟩

/-- The logs before the one that is refused are those whose conversions are begun. -/
theorem Job.refusedAfter_of_convertAll (positive : 0 < job.settings.step.nanoseconds) {tree after : FileTree}
    {logs : List Path} {fault : SettingsFault}
    (ends : convertAll (access here) job logs tree = (.error (.settings fault), after)) :
    ∃ done rest, job.RefusedAfter here tree logs fault after done rest := by
  rw [convertAll_run] at ends
  cases refuses : job.refusesLogs tree here logs with
  | some first =>
    rw [refuses] at ends
    cases ends
    have begun : job.begun here logs tree = [] := by rw [Job.begun, refuses]
    exact ⟨[], logs, rfl, by rw [begun]; rfl, ⟨0, rfl⟩, by simp [begun], .inl ⟨rfl, refuses⟩⟩
  | none =>
    rw [refuses] at ends
    obtain ⟨done, log, rest, total, rfl, converted, leads, is⟩ := convertEach_eq_settings positive logs ends
    obtain ⟨_, begun, all⟩ := convertEach_append done (log :: rest) converted
    have front : job.begun here (done ++ log :: rest) tree = job.conversions here done tree := by
      rw [Job.begun, refuses]
      simp only
      rw [begun, Job.conversions, if_pos leads, List.append_nil]
    refine ⟨done, log :: rest, rfl, front ▸ all, ⟨total, converted⟩, ?_, .inr ⟨log, rfl, leads, is⟩⟩
    intro last before ended
    rw [front] at ended
    obtain ⟨rows, alone⟩ := conversions_getLast? done converted ended
    exact convertFile_output positive alone

theorem Job.convertAll_frame (positive : 0 < job.settings.step.nanoseconds) (here : Location) (logs : List Path)
    (tree : FileTree) :
    Frame (job.touchedBy here (job.begun here logs tree)) tree (convertAll (access here) job logs tree).2 := by
  rw [Job.begun, convertAll_run]
  cases job.refusesLogs tree here logs with
  | some fault => exact .refl _ tree
  | none => exact convertEach_frame positive logs rfl

end

/-- A call that a fault of the settings ends has converted all logs before the one that is refused, and the tree is as
it was exactly if it is so where those conversions act; it is if there are none. -/
theorem settingsFault_keeps_iff (command input output options : Text) (job : Job)
    (accepted : Job.ofArguments command input output options = .ok job) (here : Location) (tree after : FileTree)
    (given : Option (List Path)) (fault : SettingsFault)
    (ends : job.call here given tree = (.error (.settings fault), after)) :
    ∃ logs done rest, job.calledOn here given tree = .ok logs ∧ job.RefusedAfter here tree logs fault after done rest ∧
      ((∀ place, after.entryAt place = tree.entryAt place) ↔
        ∀ place ∈ job.touchedBy here (job.begun here logs tree), after.entryAt place = tree.entryAt place) ∧
      (done = [] → after = tree) := by
  have positive := Job.step_pos_of_ofArguments accepted
  obtain ⟨logs, called, ends⟩ := Job.convertAll_of_call ends
  obtain ⟨done, rest, refused⟩ := Job.refusedAfter_of_convertAll positive ends
  have frame := Job.convertAll_frame positive here logs tree
  rw [ends] at frame
  refine ⟨logs, done, rest, called, refused, ⟨fun same place _ => same place, fun same place => ?_⟩, ?_⟩
  · by_cases touched : place ∈ job.touchedBy here (job.begun here logs tree)
    · exact same place touched
    · exact frame.same place touched
  · rintro rfl
    obtain ⟨count, converted⟩ := refused.converted
    cases converted
    rfl

/-- A run over two logs, where the output of the second is a link to it. -/
theorem settingsFault_keeps_iff_of_two_logs :
    let job : Job := ⟨[], ⟨"d".toList⟩, none, ⟨Pacer.defaultStep, .seconds, ".csv".toList, ".log".toList⟩⟩
    let tree := (((FileTree.empty.put ["d".toList] .directory).put ["a.log".toList, "d".toList]
      (.file (Utf8.encode "2018-08-13 02:00:00 height=1 v\n".toList))).put ["b.log".toList, "d".toList]
      (.file (Utf8.encode "2018-08-13 03:00:00 height=7 v\n".toList))).put ["b.log.csv".toList, "d".toList]
      (.link ⟨"b.log".toList⟩)
    let fault := SettingsFault.outputReplacesLog ⟨"d/b.log.csv".toList⟩
    let after := (job.call [] none tree).2
    Job.ofArguments [] "d".toList [] [] = .ok job ∧ job.call [] none tree = (.error (.settings fault), after) ∧
      ∃ logs done rest, job.calledOn [] none tree = .ok logs ∧ job.RefusedAfter [] tree logs fault after done rest ∧
        ((∀ place, after.entryAt place = tree.entryAt place) ↔
          ∀ place ∈ job.touchedBy [] (job.begun [] logs tree), after.entryAt place = tree.entryAt place) ∧
        (done = [] → after = tree) := by
  intro job tree fault after
  have accepted : Job.ofArguments [] "d".toList [] [] = .ok job := rfl
  have fails : (job.call [] none tree).1 = .error (.settings fault) := by decide +kernel
  have leaves : (job.call [] none tree).2 = after := rfl
  clear_value after job tree fault
  have ends : job.call [] none tree = (.error (.settings fault), after) := Prod.ext fails leaves
  exact ⟨accepted, ends, settingsFault_keeps_iff [] "d".toList [] [] job accepted [] tree after none fault ends⟩

/-- The same run leaves the table of the first log behind, though a fault of the settings ends it. -/
theorem run_converts_before_refusal :
    let job : Job := ⟨[], ⟨"d".toList⟩, none, ⟨Pacer.defaultStep, .seconds, ".csv".toList, ".log".toList⟩⟩
    let tree := (((FileTree.empty.put ["d".toList] .directory).put ["a.log".toList, "d".toList]
      (.file (Utf8.encode "2018-08-13 02:00:00 height=1 v\n".toList))).put ["b.log".toList, "d".toList]
      (.file (Utf8.encode "2018-08-13 03:00:00 height=7 v\n".toList))).put ["b.log.csv".toList, "d".toList]
      (.link ⟨"b.log".toList⟩)
    let table := Utf8.encode "date,elapsed time,height\n2018-08-13 02:00:00,0,1\n".toList
    Job.ofArguments [] "d".toList [] [] = .ok job ∧
      (runJob (access []) job tree).1 = .error (.settings (.outputReplacesLog ⟨"d/b.log.csv".toList⟩)) ∧
      tree.entryAt ["a.log.csv".toList, "d".toList] = none ∧
      (runJob (access []) job tree).2.entryAt ["a.log.csv".toList, "d".toList] = some (.file table) := by
  intro job tree table
  exact ⟨rfl, by decide +kernel, rfl, by decide +kernel⟩

end Cadence
