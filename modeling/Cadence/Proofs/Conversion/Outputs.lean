import Mathlib.Algebra.Ring.Nat
import Mathlib.Data.List.Forall2
import Cadence.Proofs.Conversion.Bystanders
import Cadence.Proofs.Conversion.TablesAsLogs

/-!
The outputs of several logs. A call that counts rows has converted all its logs, but a conversion may replace the output
of an earlier one, or use it up as its draft, and a draft that is made through a link makes the output a link. Where no
conversion does so, and only there, each log has a file of its own at the entry that its output names, with its
complete table, and the tables hold as many rows as the call counts (`convertAll_has_outputs_iff`). The outputs of two
logs of one name in different directories are the same (`convertAll_replaces_output`).
-/

namespace Cadence

open FileTree

/-! ## One conversion -/

section
variable {job : Job} {here : Location} {tree after : FileTree}

/-- A conversion that counts rows has written its table to the draft and renamed it. -/
theorem convertFile_eq_ok {settings : Settings} {log output : Path} {rows : Nat}
    (converted : convertFile (access here) settings log output tree = (.ok rows, after)) :
    ∃ source place made sink, tree.locate here log = .ok source ∧ tree.create here output.draft = .ok (place, made) ∧
      made.tableAt settings log output.draft source = (.ok rows, sink) ∧
      (made.setContent place sink.taken).rename here output.draft output = .ok after := by
  rw [convertFile_run] at converted
  cases located : tree.locate here log with
  | error fault =>
    rw [located] at converted
    cases converted
  | ok source =>
    simp only [located, writeOutput_run] at converted
    cases created : tree.create here output.draft with
    | error fault =>
      rw [created] at converted
      cases converted
    | ok made =>
      obtain ⟨place, made⟩ := made
      simp only [created] at converted
      rw [show settings.convertLines log output.draft (Settings.linesRead (looked (made.contentAt source))) .unlimited =
        made.tableAt settings log output.draft source from rfl] at converted
      cases tabled : made.tableAt settings log output.draft source with
      | mk outcome sink =>
        rw [tabled] at converted
        cases outcome with
        | error failure => cases failure <;> cases converted
        | ok count =>
          simp only at converted
          cases renamed : (made.setContent place sink.taken).rename here output.draft output with
          | error fault =>
            rw [renamed] at converted
            cases converted
          | ok final =>
            rw [renamed] at converted
            cases converted
            exact ⟨source, place, made, sink, rfl, rfl, tabled, renamed⟩

/-- A conversion has counted rows: its draft was made at `made` under the name of the entry `old`, and its output is the
entry `new`, a file with the table if the draft was made at its own entry, and otherwise the link that led to it. -/
structure Job.Completes (job : Job) (here : Location) (conversion : Path × FileTree) (rows : Nat) (after : FileTree)
    (made old new : Location) (table : Bytes) : Prop where
  isMade : job.draftMade? here conversion = some made
  isDraft : job.draftEntry? here conversion = some old
  isOutput : job.outputEntry? here conversion = some new
  tabled : ∃ source drafted sink, conversion.2.locate here conversion.1 = .ok source ∧
    conversion.2.create here (job.outputOf here conversion).draft = .ok (made, drafted) ∧
    drafted.tableAt job.settings conversion.1 (job.outputOf here conversion).draft source = (.ok rows, sink) ∧
    table = sink.taken
  plain : made = old → ∀ place, after.entryAt place =
    if place = new then some (.file table) else if place = old then none else conversion.2.entryAt place
  linked : made ≠ old → ∃ target, after.entryAt new = some (.link target)

theorem Job.exists_completes {log : Path} {rows : Nat}
    (converted : convertFile (access here) job.settings log (job.outputFor tree here log) tree = (.ok rows, after)) :
    ∃ made old new table, job.Completes here (log, tree) rows after made old new table := by
  obtain ⟨source, place, made, sink, located, created, tabled, renamed⟩ := convertFile_eq_ok converted
  obtain ⟨old, new, entry, draft, target, _, _, drafted, _, moved⟩ := renamedDraft_eq_ok created renamed
  refine ⟨place, old, new, sink.taken, draftMade?_eq_some_iff.mpr ⟨made, created⟩, ownPlace?_of_made created draft,
    ownPlace?_of_made created target, ⟨source, made, sink, located, created, tabled, rfl⟩, ?_, ?_⟩
  · rintro rfl other
    rw [entryAt_setContent created] at drafted
    rw [moved, ← drafted]
    split
    · rfl
    · split
      · rfl
      · rename_i elsewhere
        exact entryAt_setContent_of_ne created elsewhere _
  · intro elsewhere
    rw [entryAt_setContent_of_ne created (Ne.symm elsewhere)] at drafted
    obtain rfl | ⟨link, linked, _⟩ := create_place created (ownPlace?_of_made created draft)
    · exact absurd rfl elsewhere
    · refine ⟨link, ?_⟩
      rw [moved, if_pos rfl, ← drafted, linked]

section
variable {conversion : Path × FileTree} {rows : Nat} {made old new : Location} {table : Bytes}
  (completes : job.Completes here conversion rows after made old new table)
include completes

theorem Job.Completes.plain_iff : job.draftMade? here conversion = job.draftEntry? here conversion ↔ made = old := by
  rw [completes.isMade, completes.isDraft, Option.some_inj]

/-- Where the draft was made at its own entry, nothing changes beside the output but that this entry is gone. -/
theorem Job.Completes.entryAt (plain : job.draftMade? here conversion = job.draftEntry? here conversion)
    {place : Location} (notOutput : job.outputEntry? here conversion ≠ some place) :
    after.entryAt place =
      if job.draftEntry? here conversion = some place then none else conversion.2.entryAt place := by
  rw [completes.isOutput, ne_eq, Option.some_inj] at notOutput
  rw [completes.plain (completes.plain_iff.mp plain), if_neg (Ne.symm notOutput), completes.isDraft]
  simp only [Option.some_inj, eq_comm]

end

end

/-! ## What a call amounts to -/

/-- Each conversion has an output of its own: a file at the entry that the output names, with the complete table of the
log as the tree was before the call. The tables have so many rows in all. -/
structure Job.HasOutputs (job : Job) (here : Location) (tree : FileTree) (conversions : List (Path × FileTree))
    (total : Nat) (after : FileTree) : Prop where
  distinct : conversions.Pairwise fun first second => job.outputEntry? here first ≠ job.outputEntry? here second
  complete : ∃ counts : List Nat, counts.sum = total ∧ List.Forall₂ (fun conversion rows => ∃ place table,
    job.outputEntry? here conversion = some place ∧ after.entryAt place = some (.file table) ∧
      IsTableOf job.settings here tree conversion.1 rows table) conversions counts

/-- Each conversion makes its draft at the entry that the draft names, through no link, and none has its output or its
draft where an earlier one has its output. -/
structure Job.KeepsOutputs (job : Job) (here : Location) (conversions : List (Path × FileTree)) : Prop where
  plain : ∀ conversion ∈ conversions, job.draftMade? here conversion = job.draftEntry? here conversion
  apart : conversions.Pairwise fun first second => job.outputEntry? here second ≠ job.outputEntry? here first ∧
    job.draftEntry? here second ≠ job.outputEntry? here first

section
variable {job : Job} {here : Location} {tree after : FileTree} {log : Path} {count total : Nat}

theorem convertEach_cons_eq_ok {rest : List Path}
    (looped : convertEach (access here) job count (log :: rest) tree = (.ok total, after)) :
    ∃ rows next made old new table, job.Completes here (log, tree) rows next made old new table ∧
      convertFile (access here) job.settings log (job.outputFor tree here log) tree = (.ok rows, next) ∧
      convertEach (access here) job (count + rows) rest next = (.ok total, after) ∧
      job.conversions here (log :: rest) tree = (log, tree) :: job.conversions here rest next := by
  obtain ⟨_, _, ends, _⟩ | ⟨_, _, _, ends⟩ | ⟨rows, next, apart, alone, others⟩ := convertEach_cons_cases looped
  · cases ends
  · cases ends
  · obtain ⟨made, old, new, table, completes⟩ := Job.exists_completes alone
    exact ⟨rows, next, made, old, new, table, completes, alone, others,
      (convertEach_cons_of_ok apart alone count rest).2⟩

/-- A file that stands after the loop where no conversion has its output stood there before, and no draft was there. -/
theorem entryAt_before (logs : List Path) : ∀ {tree : FileTree} {count : Nat} {place : Location} {table : Bytes},
    convertEach (access here) job count logs tree = (.ok total, after) →
      (∀ conversion ∈ job.conversions here logs tree, job.draftMade? here conversion = job.draftEntry? here conversion ∧
        job.outputEntry? here conversion ≠ some place) →
      after.entryAt place = some (.file table) → tree.entryAt place = some (.file table) ∧
        ∀ conversion ∈ job.conversions here logs tree, job.draftEntry? here conversion ≠ some place := by
  induction logs with
  | nil =>
    intro tree count place table looped _ stands
    cases looped
    exact ⟨stands, by simp [Job.conversions]⟩
  | cons log rest ih =>
    intro tree count place table looped apart stands
    obtain ⟨rows, next, made, old, new, written, completes, _, others, begun⟩ := convertEach_cons_eq_ok looped
    rw [begun] at apart ⊢
    obtain ⟨⟨plain, notOutput⟩, later⟩ := List.forall_mem_cons.mp apart
    obtain ⟨standsNext, noDraft⟩ := ih others later stands
    rw [completes.entryAt plain notOutput] at standsNext
    by_cases drafted : job.draftEntry? here (log, tree) = some place
    · rw [if_pos drafted] at standsNext
      cases standsNext
    · rw [if_neg drafted] at standsNext
      exact ⟨standsNext, List.forall_mem_cons.mpr ⟨drafted, noDraft⟩⟩

/-- The loop leaves an entry as it was where no conversion has its output or its draft. -/
theorem entryAt_after (logs : List Path) : ∀ {tree : FileTree} {count : Nat} {place : Location},
    convertEach (access here) job count logs tree = (.ok total, after) →
      (∀ conversion ∈ job.conversions here logs tree, job.draftMade? here conversion = job.draftEntry? here conversion ∧
        job.outputEntry? here conversion ≠ some place ∧ job.draftEntry? here conversion ≠ some place) →
      after.entryAt place = tree.entryAt place := by
  induction logs with
  | nil =>
    intro tree count place looped _
    cases looped
    rfl
  | cons log rest ih =>
    intro tree count place looped apart
    obtain ⟨rows, next, made, old, new, written, completes, _, others, begun⟩ := convertEach_cons_eq_ok looped
    rw [begun] at apart
    obtain ⟨⟨plain, notOutput, notDraft⟩, later⟩ := List.forall_mem_cons.mp apart
    rw [ih others later, completes.entryAt plain notOutput, if_neg notDraft]

/-- Where each output is a file in the end, no conversion has disturbed an earlier output. -/
theorem keepsOutputs_of_files (logs : List Path) : ∀ {tree : FileTree} {count : Nat},
    convertEach (access here) job count logs tree = (.ok total, after) →
      ((job.conversions here logs tree).Pairwise fun first second =>
        job.outputEntry? here first ≠ job.outputEntry? here second) →
      (∀ conversion ∈ job.conversions here logs tree, ∃ place table, job.outputEntry? here conversion = some place ∧
        after.entryAt place = some (.file table)) →
      job.KeepsOutputs here (job.conversions here logs tree) := by
  induction logs with
  | nil =>
    intro tree count _ _ _
    exact ⟨by simp [Job.conversions], .nil⟩
  | cons log rest ih =>
    intro tree count looped distinct files
    obtain ⟨rows, next, made, old, new, written, completes, _, others, begun⟩ := convertEach_cons_eq_ok looped
    rw [begun] at distinct files ⊢
    obtain ⟨apart, distinct⟩ := List.pairwise_cons.mp distinct
    obtain ⟨⟨place, table, output, stands⟩, files⟩ := List.forall_mem_cons.mp files
    obtain ⟨plain, later⟩ := ih others distinct files
    have isPlace : new = place := Option.some.inj (completes.isOutput.symm.trans output)
    subst isPlace
    obtain ⟨standsNext, noDraft⟩ := entryAt_before rest others
      (fun conversion member => ⟨plain conversion member, output ▸ (apart conversion member).symm⟩) stands
    have own : made = old := by
      by_contra elsewhere
      obtain ⟨target, linked⟩ := completes.linked elsewhere
      rw [linked] at standsNext
      cases standsNext
    refine ⟨List.forall_mem_cons.mpr ⟨?_, plain⟩, List.pairwise_cons.mpr ⟨?_, later⟩⟩
    · exact completes.plain_iff.mpr own
    · intro conversion member
      exact ⟨(apart conversion member).symm, output ▸ noDraft conversion member⟩

/-! ## The bytes that are converted -/

/-- The log can be converted in a tree as if it held these bytes: it does, and no conversion acts on it, or they are
silent, and whatever it holds is silent as well. -/
def Job.CanStillRead (job : Job) (here : Location) (log : Path) (bytes : Bytes) (logs : List Path) (now : FileTree) :
    Prop :=
  (now.contentOf here log = .ok bytes ∧ job.Spares here log (job.conversions here logs now)) ∨
    (IsSilent bytes ∧ ∀ content, now.contentOf here log = .ok content → IsSilent content)

/-- A log that holds the same bytes before and after the loop. -/
theorem Job.canStillRead_of_kept (positive : 0 < job.settings.step.nanoseconds) {logs : List Path} {bytes : Bytes}
    (looped : convertEach (access here) job count logs tree = (.ok total, after))
    (before : tree.contentOf here log = .ok bytes) (kept : after.contentOf here log = .ok bytes) :
    job.CanStillRead here log bytes logs tree := by
  by_cases silent : IsSilent bytes
  · right
    refine ⟨silent, fun content read => ?_⟩
    rw [before] at read
    cases read
    exact silent
  · left
    refine ⟨before,
      (spares_of_unwritten positive (fun writes => silent (writes.isSilent positive)) logs tree count ?_).2⟩
    rw [looped]
    exact kept

theorem Job.CanStillRead.next (positive : 0 < job.settings.step.nanoseconds) {first : Path} {rest : List Path}
    {bytes : Bytes} {rows : Nat} {next : FileTree}
    (converted : convertFile (access here) job.settings first (job.outputFor tree here first) tree = (.ok rows, next))
    (begun : job.conversions here (first :: rest) tree = (first, tree) :: job.conversions here rest next)
    (reads : job.CanStillRead here log bytes (first :: rest) tree) : job.CanStillRead here log bytes rest next := by
  rcases reads with ⟨read, spares⟩ | ⟨silent, others⟩
  · left
    rw [begun] at spares
    have kept := ((convertFile_frame positive first (job.outputFor tree here first)).contentOf
      (spares first tree List.mem_cons_self) read).1
    rw [converted] at kept
    exact ⟨kept, fun log tree member => spares log tree (List.mem_cons_of_mem _ member)⟩
  · right
    refine ⟨silent, fun content read => ?_⟩
    by_contra loud
    rw [show next = (convertFile (access here) job.settings first (job.outputFor tree here first) tree).2 by
      rw [converted]] at read
    exact loud (others content (spared_of_contentOf positive read fun writes => loud (writes.isSilent positive)).1)

/-- Once its draft is made, the conversion of a log reads the bytes that the log can still be read as, or others that
are as silent as they are. -/
theorem Job.CanStillRead.readAt {rest : List Path} {bytes : Bytes} {next drafted : FileTree} {source made : Location}
    (located : tree.locate here log = .ok source)
    (created : tree.create here (job.outputFor tree here log).draft = .ok (made, drafted))
    (begun : job.conversions here (log :: rest) tree = (log, tree) :: job.conversions here rest next)
    (reads : job.CanStillRead here log bytes (log :: rest) tree) :
    drafted.readAt source = .ok bytes ∨
      (IsSilent bytes ∧ ∀ content, drafted.readAt source = .ok content → IsSilent content) := by
  obtain ⟨isPut, proper, _⟩ := create_eq_ok created
  have elsewhere : source ≠ made → drafted.readAt source = looked (tree.contentAt source) := by
    intro apart
    rw [FileTree.readAt, isPut, contentAt, entryAt_put_of_ne tree proper _ apart, contentAt]
  rcases reads with ⟨read, spares⟩ | ⟨silent, others⟩
  · left
    obtain ⟨location, found, stands⟩ := contentOf_eq_ok_iff.mp read
    cases found.symm.trans located
    have apart : source ≠ made := by
      rintro rfl
      rw [begun] at spares
      refine spares log tree List.mem_cons_self source (by simp [stops_of_locate found]) ?_
      simp only [Settings.touched, located, created, List.cons_append, List.mem_cons, true_or]
    rw [elsewhere apart, contentAt, stands]
    rfl
  · right
    refine ⟨silent, fun content held => ?_⟩
    by_cases apart : source = made
    · rw [FileTree.readAt, isPut, apart, contentAt, entryAt_put_self tree proper] at held
      cases held
      exact List.not_mem_nil
    · rw [elsewhere apart] at held
      refine others content ?_
      rw [contentOf, located]
      cases stands : tree.contentAt source with
      | error fault =>
        rw [stands] at held
        cases held
      | ok bytes =>
        rw [stands] at held
        cases held
        exact stands

/-- The table that a log is converted to is that of the bytes that it can still be read as. -/
theorem Job.Completes.means (positive : 0 < job.settings.step.nanoseconds) {rest : List Path} {bytes table : Bytes}
    {rows : Nat} {next : FileTree} {made old new : Location}
    (completes : job.Completes here (log, tree) rows next made old new table)
    (begun : job.conversions here (log :: rest) tree = (log, tree) :: job.conversions here rest next)
    (reads : job.CanStillRead here log bytes (log :: rest) tree) : job.settings.Means bytes (.ok rows) table := by
  obtain ⟨source, drafted, sink, located, created, tabled, rfl⟩ := completes.tabled
  have same : job.settings.convertLines log (job.outputOf here (log, tree)).draft (Settings.linesRead (.ok bytes))
      .unlimited = (.ok rows, sink) := by
    rw [← tabled, tableAt]
    rcases reads.readAt located created begun with read | ⟨silent, others⟩
    · rw [read]
    · cases held : drafted.readAt source with
      | error cause =>
        rw [tableAt, held, Settings.convertLines_of_error] at tabled
        cases tabled
      | ok content => exact Settings.convertLines_of_silent _ _ _ silent (others content held) _
  obtain ⟨outcome, written, again, means⟩ := Settings.means_of_step_pos positive log
    (job.outputOf here (log, tree)).draft bytes
  rw [same] at again
  obtain ⟨rfl, rfl⟩ := Prod.mk.inj again
  exact means

/-- Where no conversion disturbs an earlier output, each has its own in the end. -/
theorem complete_of_keepsOutputs (positive : 0 < job.settings.step.nanoseconds) {first : FileTree} (logs : List Path) :
    ∀ {tree : FileTree} {count : Nat}, convertEach (access here) job count logs tree = (.ok total, after) →
      job.KeepsOutputs here (job.conversions here logs tree) →
      (∀ log ∈ logs, ∃ bytes, first.contentOf here log = .ok bytes ∧ job.CanStillRead here log bytes logs tree) →
      ∃ counts : List Nat, count + counts.sum = total ∧ List.Forall₂ (fun conversion rows => ∃ place table,
        job.outputEntry? here conversion = some place ∧ after.entryAt place = some (.file table) ∧
          IsTableOf job.settings here first conversion.1 rows table) (job.conversions here logs tree) counts := by
  induction logs with
  | nil =>
    intro tree count looped _ _
    cases looped
    exact ⟨[], rfl, .nil⟩
  | cons log rest ih =>
    intro tree count looped keeps reads
    obtain ⟨rows, next, made, old, new, table, completes, converted, others, begun⟩ := convertEach_cons_eq_ok looped
    obtain ⟨plain, apart⟩ := keeps
    have readsLater : ∀ other ∈ rest, ∃ bytes, first.contentOf here other = .ok bytes ∧
        job.CanStillRead here other bytes rest next := by
      intro other member
      obtain ⟨bytes, holds, can⟩ := reads other (List.mem_cons_of_mem _ member)
      exact ⟨bytes, holds, can.next positive converted begun⟩
    obtain ⟨bytes, holds, can⟩ := reads log List.mem_cons_self
    have means := completes.means positive begun can
    rw [begun] at plain apart ⊢
    obtain ⟨own, plain⟩ := List.forall_mem_cons.mp plain
    obtain ⟨elsewhere, apart⟩ := List.pairwise_cons.mp apart
    obtain ⟨counts, sum, complete⟩ := ih others ⟨plain, apart⟩ readsLater
    refine ⟨rows :: counts, by rw [List.sum_cons]; omega, .cons ⟨new, table, completes.isOutput, ?_, ?_⟩ complete⟩
    · rw [entryAt_after rest others, completes.plain (completes.plain_iff.mp own), if_pos rfl]
      intro conversion member
      rw [← completes.isOutput]
      exact ⟨plain conversion member, elsewhere conversion member⟩
    · obtain ⟨source, located, stands⟩ := contentOf_eq_ok_iff.mp holds
      exact ⟨source, bytes, located, by rw [contentAt, stands], means, means.rows⟩

end

/-- A call that counts rows has converted all its logs. If these hold the same bytes before and after it, each has an
output of its own with its complete table, and the tables hold as many rows, exactly if each draft is made at its own
entry and no conversion has its output or its draft where an earlier one has its output. -/
theorem convertAll_has_outputs_iff (command input output options : Text) (job : Job)
    (accepted : Job.ofArguments command input output options = .ok job) (here : Location) (tree after : FileTree)
    (logs : List Path) (total : Nat) (converted : convertAll (access here) job logs tree = (.ok total, after))
    (kept : ∀ log ∈ logs, ∃ bytes, tree.contentOf here log = .ok bytes ∧ after.contentOf here log = .ok bytes) :
    (job.begun here logs tree).map Prod.fst = logs ∧
      (job.HasOutputs here tree (job.begun here logs tree) total after ↔
        job.KeepsOutputs here (job.begun here logs tree)) := by
  have positive := Job.step_pos_of_ofArguments accepted
  rw [convertAll_run] at converted
  cases refuses : job.refusesLogs tree here logs with
  | some fault =>
    rw [refuses] at converted
    cases converted
  | none =>
    rw [refuses] at converted
    have begun : job.begun here logs tree = job.conversions here logs tree := by rw [Job.begun, refuses]
    rw [begun]
    refine ⟨(convertEach_append logs [] converted).2.2, ?_, ?_⟩
    · rintro ⟨distinct, counts, _, complete⟩
      have files : List.Forall₂ (fun conversion _ => (∃ place table, job.outputEntry? here conversion = some place ∧
          after.entryAt place = some (.file table)) ∧ True) (job.conversions here logs tree) counts := by
        refine complete.imp fun conversion rows written => ?_
        obtain ⟨place, table, output, stands, _⟩ := written
        exact ⟨⟨place, table, output, stands⟩, trivial⟩
      exact keepsOutputs_of_files logs converted distinct ((List.forall₂_and_left _ _).mp files).1
    · intro keeps
      refine ⟨keeps.apart.imp fun apart => apart.1.symm, ?_⟩
      obtain ⟨counts, sum, complete⟩ := complete_of_keepsOutputs positive logs converted keeps fun log member => by
        obtain ⟨bytes, before, same⟩ := kept log member
        exact ⟨bytes, before, Job.canStillRead_of_kept positive converted before same⟩
      exact ⟨counts, by omega, complete⟩

/-- A call on two logs of two directories whose tables go to a third: each has its own. -/
theorem convertAll_has_outputs_iff_of_two_names :
    let job : Job :=
      ⟨[], ⟨"a".toList⟩, some ⟨"out".toList⟩, ⟨Pacer.defaultStep, .seconds, ".csv".toList, ".log".toList⟩⟩
    let first := Utf8.encode "2018-08-13 02:00:00 height=1 v\n".toList
    let second := Utf8.encode "2018-08-13 03:00:00 height=7 v\n".toList
    let tree := ((((FileTree.empty.put ["a".toList] .directory).put ["b".toList] .directory).put ["out".toList]
      .directory).put ["x.log".toList, "a".toList] (.file first)).put ["y.log".toList, "b".toList] (.file second)
    let logs : List Path := [⟨"a/x.log".toList⟩, ⟨"b/y.log".toList⟩]
    let after := (convertAll (access []) job logs tree).2
    Job.ofArguments [] "a".toList "out".toList [] = .ok job ∧
      convertAll (access []) job logs tree = (.ok 2, after) ∧
      (∀ log ∈ logs, ∃ bytes, tree.contentOf [] log = .ok bytes ∧ after.contentOf [] log = .ok bytes) ∧
      (job.begun [] logs tree).map Prod.fst = logs ∧
      job.KeepsOutputs [] (job.begun [] logs tree) ∧ job.HasOutputs [] tree (job.begun [] logs tree) 2 after := by
  intro job first second tree logs after
  have accepted : Job.ofArguments [] "a".toList "out".toList [] = .ok job := rfl
  have counted : (convertAll (access []) job logs tree).1 = .ok 2 := by decide +kernel
  have converted : convertAll (access []) job logs tree = (.ok 2, after) := by
    rw [← counted]
    exact (Prod.eta _).symm
  have kept : ∀ log ∈ logs, ∃ bytes, tree.contentOf [] log = .ok bytes ∧ after.contentOf [] log = .ok bytes := by
    simp only [logs, List.forall_mem_cons]
    exact ⟨⟨first, rfl, by decide +kernel⟩, ⟨second, rfl, by decide +kernel⟩, by simp⟩
  have keeps : job.KeepsOutputs [] (job.begun [] logs tree) := ⟨by decide +kernel, by decide +kernel⟩
  clear_value after job logs tree first second
  obtain ⟨begun, iff⟩ :=
    convertAll_has_outputs_iff [] "a".toList "out".toList [] job accepted [] tree after logs 2 converted kept
  exact ⟨accepted, converted, kept, begun, keeps, iff.mpr keeps⟩

/-- A call on two logs of one name in two directories: it counts two rows, and no table of the first is there then. -/
theorem convertAll_replaces_output :
    let job : Job :=
      ⟨[], ⟨"a".toList⟩, some ⟨"out".toList⟩, ⟨Pacer.defaultStep, .seconds, ".csv".toList, ".log".toList⟩⟩
    let first := Utf8.encode "2018-08-13 02:00:00 height=1 v\n".toList
    let second := Utf8.encode "2018-08-13 03:00:00 height=7 v\n".toList
    let tree := ((((FileTree.empty.put ["a".toList] .directory).put ["b".toList] .directory).put ["out".toList]
      .directory).put ["x.log".toList, "a".toList] (.file first)).put ["x.log".toList, "b".toList] (.file second)
    let logs : List Path := [⟨"a/x.log".toList⟩, ⟨"b/x.log".toList⟩]
    let output : Location := ["x.log.csv".toList, "out".toList]
    let after := (convertAll (access []) job logs tree).2
    Job.ofArguments [] "a".toList "out".toList [] = .ok job ∧
      (convertAll (access []) job logs tree).1 = .ok 2 ∧
      logs.map (tree.locate []) = [.ok ["x.log".toList, "a".toList], .ok ["x.log".toList, "b".toList]] ∧
      logs.map (tree.contentOf []) = [.ok first, .ok second] ∧ logs.map (after.contentOf []) = [.ok first, .ok second] ∧
      (job.begun [] logs tree).map Prod.fst = logs ∧
      (∀ conversion ∈ job.begun [] logs tree, job.outputEntry? [] conversion = some output) ∧
      after.entryAt output = some (.file (Utf8.encode "date,elapsed time,height\n2018-08-13 03:00:00,0,7\n".toList)) ∧
      ∀ place, after.entryAt place ≠
        some (.file (Utf8.encode "date,elapsed time,height\n2018-08-13 02:00:00,0,1\n".toList)) := by
  intro job first second tree logs output after
  refine ⟨rfl, by decide +kernel, rfl, rfl, by decide +kernel, by decide +kernel, by decide +kernel,
    by decide +kernel, ?_⟩
  have nowhere : ∀ entry ∈ after.entries.map Prod.snd,
      entry ≠ .file (Utf8.encode "date,elapsed time,height\n2018-08-13 02:00:00,0,1\n".toList) := by
    decide +kernel
  intro place stands
  unfold entryAt at stands
  split at stands
  · cases stands
  · exact nowhere _ (List.mem_map_of_mem (mem_of_find? stands)) rfl

end Cadence
