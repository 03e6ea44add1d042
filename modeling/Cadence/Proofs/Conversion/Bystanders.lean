import Cadence.Proofs.Conversion.Refusals

/-!
What a call leaves alone. A conversion acts on the entries that its output and its draft name, and a link that stands
where the draft belongs is followed, so that the draft is made where the link leads. Every other entry is after the
call what it was before, and none comes to be but the outputs and the drafts that were made behind links
(`call_leaves_bystanders`). An entry that has the name of a draft is lost, and a file behind such a link is overwritten
(`run_disturbs_bystanders`).
-/

namespace Cadence

open FileTree

section
variable (job : Job) (here : Location) (conversion : Path × FileTree)

/-- The output of a conversion, as it finds the tree. -/
def Job.outputOf : Path := job.outputFor conversion.2 here conversion.1

def Job.outputEntry? : Option Location := conversion.2.ownPlace? here (job.outputOf here conversion)

def Job.draftEntry? : Option Location := conversion.2.ownPlace? here (job.outputOf here conversion).draft

/-- Where the draft is made, if it can be: at its entry or, if a link stands there, where this leads. -/
def Job.draftMade? : Option Location :=
  match conversion.2.create here (job.outputOf here conversion).draft with
  | .error _ => none
  | .ok (place, _) => some place

/-- A link that has this target and stands at `own` leads to the place, whether or not an entry is there. -/
def FileTree.LinkLeads (tree : FileTree) (own : Location) (target : Path) (place : Location) : Prop :=
  ∃ links spot slash, tree.walk false links (.throughLink own.tail target [] false) = .ok ⟨spot, slash⟩ ∧
    spot.location = place

/-- The conversions that a call begins, by their logs and the trees that they find. -/
def Job.begunBy (given : Option (List Path)) (tree : FileTree) : List (Path × FileTree) :=
  match job.calledOn here given tree with
  | .error _ => []
  | .ok logs => job.begun here logs tree

end

/-! ## One conversion -/

section
variable {job : Job} {here : Location} {tree : FileTree}

theorem Job.draftMade?_eq_some_iff {conversion : Path × FileTree} {place : Location} :
    job.draftMade? here conversion = some place ↔
      ∃ made, conversion.2.create here (job.outputOf here conversion).draft = .ok (place, made) := by
  unfold draftMade?
  cases conversion.2.create here (job.outputOf here conversion).draft with
  | error fault => simp
  | ok made =>
    obtain ⟨at', made⟩ := made
    simp

/-- The draft is made at the entry that it names or where a link that stands there leads. -/
theorem Job.draftMade?_cases {conversion : Path × FileTree} {place : Location} (nested : conversion.2.Nested)
    (made : job.draftMade? here conversion = some place) : ∃ own, job.draftEntry? here conversion = some own ∧
      (place = own ∨ ∃ target, conversion.2.entryAt own = some (.link target) ∧
        conversion.2.LinkLeads own target place) := by
  obtain ⟨_, created⟩ := draftMade?_eq_some_iff.mp made
  obtain ⟨own, named⟩ := exists_ownPlace?_of_create nested created
  exact ⟨own, named, create_place created named⟩

/-- A conversion touches the entries of its output and its draft and the place where the draft is made. -/
theorem Job.touched_cases {log : Path} {place : Location}
    (touched : place ∈ job.settings.touched here tree log (job.outputFor tree here log)) :
    job.outputEntry? here (log, tree) = some place ∨ job.draftEntry? here (log, tree) = some place ∨
      job.draftMade? here (log, tree) = some place := by
  rw [Settings.touched] at touched
  cases located : tree.locate here log with
  | error fault => simp [located] at touched
  | ok source =>
    cases created : tree.create here (job.outputFor tree here log).draft with
    | error fault =>
      simp only [located, created, Option.mem_toList] at touched
      exact .inr (.inl touched)
    | ok made =>
      obtain ⟨at', made⟩ := made
      simp only [located, created, List.cons_append, List.mem_cons, List.mem_append, Option.mem_toList] at touched
      obtain rfl | draft | output := touched
      · exact .inr (.inr (draftMade?_eq_some_iff.mpr ⟨made, created⟩))
      · exact .inr (.inl (ownPlace?_of_made created draft))
      · left
        split at output
        · simp at output
        · exact ownPlace?_of_made created (Option.mem_toList.mp output)

/-- A file that is made at a free entry keeps the entries that paths name, whatever its content. -/
theorem FileTree.ownPlace?_drafted {draft path : Path} {drafted own : Location} {made : FileTree}
    (created : tree.create here draft = .ok (drafted, made)) (free : tree.entryAt drafted = none)
    (named : tree.ownPlace? here path = some own) (table : Bytes) :
    (made.setContent drafted table).ownPlace? here path = some own := by
  rw [ownPlace?_setContent created]
  obtain ⟨rfl, proper, _⟩ := create_eq_ok created
  exact (keeps_put [] proper (by simp [free]) (by simp [free])).ownPlace? named

theorem FileTree.entryAt_of_removedAt {path : Path} {place : Location} (free : tree.entryAt place = none) :
    (tree.removedAt here path).entryAt place = none := by
  unfold removedAt
  cases removed : tree.remove here path with
  | error fault => exact free
  | ok after =>
    obtain ⟨own, _, proper, _, rfl⟩ := remove_eq_ok removed
    simp only
    rw [entryAt_erase tree _ proper, free]
    exact ite_self none

/-- A draft that is written and then removed leaves nothing behind, unless it was made elsewhere than at its entry. -/
theorem FileTree.removedDraft_adds {draft : Path} {drafted place : Location} {made : FileTree} {table : Bytes}
    (created : tree.create here draft = .ok (drafted, made)) (free : tree.entryAt place = none)
    (added : ((made.setContent drafted table).removedAt here draft).entryAt place ≠ none) :
    place = drafted ∧ tree.ownPlace? here draft ≠ some place := by
  have same : place = drafted := by
    by_contra other
    have still := (frame_setContent created table).same place (by simpa using other)
    exact added (entryAt_of_removedAt (still.trans free))
  refine ⟨same, fun own => ?_⟩
  obtain gone | inside := entryAt_removedAt (ownPlace?_drafted created (same ▸ free) own table)
  · exact added gone
  · have frame := (frame_setContent created table).directories place
    rw [← ((made.setContent drafted table).frame_removedAt here draft).directories place,
      isDirectoryAt_iff.mpr inside] at frame
    have before := isDirectoryAt_iff.mp frame.symm
    rw [free] at before
    cases before

/-- A draft that is written and then renamed adds its output, and itself if it was made elsewhere than at its entry. -/
theorem FileTree.renamedDraft_adds {output : Path} {drafted place : Location} {made after : FileTree} {table : Bytes}
    (created : tree.create here output.draft = .ok (drafted, made)) (free : tree.entryAt place = none)
    (renamed : (made.setContent drafted table).rename here output.draft output = .ok after)
    (added : after.entryAt place ≠ none) :
    tree.ownPlace? here output = some place ∨ (place = drafted ∧ tree.ownPlace? here output.draft ≠ some place) := by
  obtain ⟨old, new, entry, draft, target, _, _, _, _, moved⟩ := renamedDraft_eq_ok created renamed
  rw [moved] at added
  by_cases isNew : place = new
  · exact .inl (isNew ▸ ownPlace?_of_made created target)
  · right
    rw [if_neg isNew] at added
    by_cases isOld : place = old
    · exact absurd (if_pos isOld) added
    · rw [if_neg isOld] at added
      have same : place = drafted := by
        by_contra other
        have still := (frame_setContent created table).same place (by simpa using other)
        exact added (still.trans free)
      refine ⟨same, fun own => isOld ?_⟩
      have stays := ownPlace?_drafted created (same ▸ free) own table
      rw [ownPlace?_setContent created] at stays
      exact Option.some.inj (stays.symm.trans draft)

/-- A conversion adds nothing but its output, or its draft where that was made elsewhere than at its entry. -/
theorem Job.convertFile_adds (positive : 0 < job.settings.step.nanoseconds) {log : Path} {place : Location}
    (free : tree.entryAt place = none)
    (added : (convertFile (access here) job.settings log (job.outputFor tree here log) tree).2.entryAt place ≠ none) :
    job.outputEntry? here (log, tree) = some place ∨
      (job.draftMade? here (log, tree) = some place ∧ job.draftEntry? here (log, tree) ≠ some place) := by
  obtain ⟨outcome, after, converted⟩ : ∃ outcome after,
      convertFile (access here) job.settings log (job.outputFor tree here log) tree = (outcome, after) := ⟨_, _, rfl⟩
  rw [converted] at added
  obtain ⟨_, rfl⟩ | ⟨_, ⟨_, rfl⟩ | ⟨drafted, made, table, created, _, ⟨_, rfl⟩ | ⟨_, renamed⟩⟩⟩ :=
    convertFile_cases positive log (job.outputFor tree here log) converted
  · exact absurd free added
  · exact absurd (entryAt_of_removedAt free) added
  · obtain ⟨rfl, elsewhere⟩ := removedDraft_adds created free added
    exact .inr ⟨draftMade?_eq_some_iff.mpr ⟨made, created⟩, elsewhere⟩
  · obtain output | ⟨rfl, elsewhere⟩ := renamedDraft_adds created free renamed added
    · exact .inl output
    · exact .inr ⟨draftMade?_eq_some_iff.mpr ⟨made, created⟩, elsewhere⟩

end

/-! ## Calls -/

section
variable {job : Job} {here : Location}

theorem convertEach_adds (positive : 0 < job.settings.step.nanoseconds) (logs : List Path) {place : Location} :
    ∀ {tree after : FileTree} {count : Nat} {outcome : Except Failure Nat},
      convertEach (access here) job count logs tree = (outcome, after) →
      tree.entryAt place = none → after.entryAt place ≠ none →
      ∃ conversion ∈ job.conversions here logs tree, job.outputEntry? here conversion = some place ∨
        (job.draftMade? here conversion = some place ∧ job.draftEntry? here conversion ≠ some place) := by
  induction logs with
  | nil =>
    intro tree after count outcome looped free added
    cases looped
    exact absurd free added
  | cons log rest ih =>
    intro tree after count outcome looped free added
    have first : (convertFile (access here) job.settings log (job.outputFor tree here log) tree).2.entryAt place ≠ none →
        _ := Job.convertFile_adds positive free
    obtain ⟨_, _, _, rfl⟩ | ⟨_, alone, begun, _⟩ | ⟨rows, next, apart, alone, others⟩ := convertEach_cons_cases looped
    · exact absurd free added
    · rw [alone] at first
      rw [begun]
      exact ⟨_, List.mem_singleton_self _, first added⟩
    · rw [alone] at first
      rw [(convertEach_cons_of_ok apart alone count rest).2]
      by_cases still : next.entryAt place = none
      · obtain ⟨conversion, member, added⟩ := ih others still added
        exact ⟨conversion, List.mem_cons_of_mem _ member, added⟩
      · exact ⟨_, List.mem_cons_self, first still⟩

theorem Job.conversions_prefix (logs : List Path) : ∀ tree : FileTree,
    (job.conversions here logs tree).map Prod.fst <+: logs := by
  induction logs with
  | nil => exact fun tree => List.prefix_rfl
  | cons log rest ih =>
    intro tree
    rw [conversions]
    split
    · exact List.nil_prefix
    · rw [List.map_cons, List.prefix_cons_inj]
      split
      · exact List.nil_prefix
      · exact ih _

/-- Conversions find the directories that there were. -/
theorem Job.conversions_directories (positive : 0 < job.settings.step.nanoseconds) (logs : List Path) :
    ∀ {tree : FileTree}, ∀ conversion ∈ job.conversions here logs tree, ∀ place,
      conversion.2.isDirectoryAt place = tree.isDirectoryAt place := by
  induction logs with
  | nil => simp [conversions]
  | cons log rest ih =>
    intro tree conversion member place
    have frame : Frame (job.settings.touched here tree log (job.outputFor tree here log)) tree _ :=
      convertFile_frame positive log (job.outputFor tree here log)
    rw [conversions] at member
    split at member
    · cases member
    · obtain _ | ⟨_, later⟩ := member
      · rfl
      · split at later
        · cases later
        · rename_i converted
          rw [converted] at frame
          exact (ih conversion later place).trans (frame.directories place)

/-- A call ends with the tree in which it converts its logs, if it has any. -/
theorem Job.call_tree (given : Option (List Path)) (tree : FileTree) : (job.call here given tree).2 =
    match job.calledOn here given tree with
    | .error _ => tree
    | .ok logs => (convertAll (access here) job logs tree).2 := by
  cases given with
  | some logs => rfl
  | none =>
    rw [call, calledOn, runJob_run, collectLogs_run]
    cases tree.logsOf here job.input job.settings.extension with
    | error failure => rfl
    | ok logs =>
      simp only
      rcases convertAll (access here) job logs tree with ⟨outcome, after⟩
      cases outcome <;> rfl

theorem Job.call_cases (job : Job) (here : Location) (given : Option (List Path)) (tree : FileTree) :
    (job.begunBy here given tree = [] ∧ (job.call here given tree).2 = tree) ∨
      ∃ logs, job.calledOn here given tree = .ok logs ∧
        job.begunBy here given tree = job.conversions here logs tree ∧
        (job.call here given tree).2 = (convertEach (access here) job 0 logs tree).2 := by
  rw [call_tree, begunBy]
  cases called : job.calledOn here given tree with
  | error failure => exact .inl ⟨rfl, rfl⟩
  | ok logs =>
    simp only [begun, convertAll_run]
    cases job.refusesLogs tree here logs with
    | some fault => exact .inl ⟨rfl, rfl⟩
    | none => exact .inr ⟨logs, rfl, rfl, rfl⟩

end

/-- A call leaves an entry as it was unless a conversion that it begins has its output or its draft there, or makes its
draft there; and where there was no entry there is none, unless it is an output or a draft that was made elsewhere than
at its entry. In a tree whose directories stand in directories, it is made elsewhere only where a link that stands at
its entry leads. -/
theorem call_leaves_bystanders (command input output options : Text) (job : Job)
    (accepted : Job.ofArguments command input output options = .ok job) (here : Location) (tree : FileTree)
    (given : Option (List Path)) :
    let begun := job.begunBy here given tree
    let after := (job.call here given tree).2
    (∀ logs, job.calledOn here given tree = .ok logs → begun.map Prod.fst <+: logs) ∧
    (∀ place, (∀ conversion ∈ begun, job.outputEntry? here conversion ≠ some place ∧
        job.draftEntry? here conversion ≠ some place ∧ job.draftMade? here conversion ≠ some place) →
      after.entryAt place = tree.entryAt place) ∧
    (∀ place, (∀ conversion ∈ begun, job.outputEntry? here conversion ≠ some place ∧
        (job.draftMade? here conversion = some place → job.draftEntry? here conversion = some place)) →
      tree.entryAt place = none → after.entryAt place = none) ∧
    (tree.Nested → ∀ conversion ∈ begun, ∀ place, job.draftMade? here conversion = some place →
      ∃ own, job.draftEntry? here conversion = some own ∧
        (place = own ∨ ∃ target, conversion.2.entryAt own = some (.link target) ∧
          conversion.2.LinkLeads own target place)) := by
  have positive := Job.step_pos_of_ofArguments accepted
  dsimp only
  obtain ⟨none, still⟩ | ⟨logs, called, begins, ends⟩ := job.call_cases here given tree
  · rw [none, still]
    exact ⟨fun _ _ => List.nil_prefix, fun _ _ => rfl, fun _ _ free => free, fun _ _ member => by cases member⟩
  · rw [begins, ends]
    refine ⟨?_, ?_, ?_, ?_⟩
    · intro others collected
      cases called.symm.trans collected
      exact Job.conversions_prefix logs tree
    · intro place apart
      refine (convertEach_frame positive logs rfl).same place ?_
      intro touched
      obtain ⟨⟨log, before⟩, member, acts⟩ := List.mem_flatMap.mp touched
      obtain ⟨noOutput, noDraft, notMade⟩ := apart _ member
      obtain output | draft | made := Job.touched_cases acts
      · exact noOutput output
      · exact noDraft draft
      · exact notMade made
    · intro place apart free
      by_contra added
      obtain ⟨conversion, member, output | ⟨made, elsewhere⟩⟩ := convertEach_adds positive logs rfl free added
      · exact (apart conversion member).1 output
      · exact elsewhere ((apart conversion member).2 made)
    · intro nested conversion member place made
      refine Job.draftMade?_cases ?_ made
      intro inner inside
      rw [Job.conversions_directories positive logs conversion member] at inside ⊢
      exact nested inner inside

/-- A call on a log with a date-time that is none: it fails, and its neighbour stays. -/
theorem call_leaves_bystanders_of_unreal_date :
    let job : Job := ⟨[], ⟨"d".toList⟩, none, ⟨Pacer.defaultStep, .seconds, ".csv".toList, ".log".toList⟩⟩
    let neighbour : Location := ["notes".toList, "d".toList]
    let draft : Location := [".a.log.csv".toList, "d".toList]
    let tree := ((FileTree.empty.put ["d".toList] .directory).put ["a.log".toList, "d".toList]
      (.file (Utf8.encode "2018-02-30 02:00:00 height=1 v\n".toList))).put neighbour (.file (Utf8.encode "notes\n".toList))
    let log : Path := ⟨"d/a.log".toList⟩
    let after := (job.call [] (some [log]) tree).2
    Job.ofArguments [] "d".toList [] [] = .ok job ∧
      (job.call [] (some [log]) tree).1 = .error (.badTimestamp 1 "2018-02-30 02:00:00".toList) ∧
      job.begunBy [] (some [log]) tree = [(log, tree)] ∧ after.entryAt neighbour = tree.entryAt neighbour ∧
      tree.Nested ∧ job.draftMade? [] (log, tree) = some draft ∧ ∃ own, job.draftEntry? [] (log, tree) = some own ∧
        (draft = own ∨ ∃ target, tree.entryAt own = some (.link target) ∧ tree.LinkLeads own target draft) := by
  intro job neighbour draft tree log after
  have accepted : Job.ofArguments [] "d".toList [] [] = .ok job := rfl
  have fails : (job.call [] (some [log]) tree).1 = .error (.badTimestamp 1 "2018-02-30 02:00:00".toList) := by
    decide +kernel
  have alone : job.begunBy [] (some [log]) tree = [(log, tree)] := by
    rw [Job.begunBy, Job.calledOn]
    simp only
    rw [Job.begun, show job.refusesLogs tree [] [log] = none from rfl]
    simp only
    rw [Job.conversions, if_neg (by decide)]
    rcases convertFile (access []) job.settings log (job.outputFor tree [] log) tree with ⟨outcome, after⟩
    cases outcome <;> rfl
  have apart : ∀ conversion ∈ job.begunBy [] (some [log]) tree, job.outputEntry? [] conversion ≠ some neighbour ∧
      job.draftEntry? [] conversion ≠ some neighbour ∧ job.draftMade? [] conversion ≠ some neighbour := by
    rw [alone]
    intro conversion member
    cases List.mem_singleton.mp member
    decide +kernel
  have nested : tree.Nested := by decide +kernel
  have made : job.draftMade? [] (log, tree) = some draft := by decide +kernel
  have leaves : (job.call [] (some [log]) tree).2 = after := rfl
  clear_value after job tree log neighbour draft
  obtain ⟨_, same, _, drafts⟩ := call_leaves_bystanders [] "d".toList [] [] job accepted [] tree (some [log])
  refine ⟨accepted, fails, alone, ?_, nested, made, ?_⟩
  · rw [← leaves]
    exact same neighbour apart
  · exact drafts nested (log, tree) (by rw [alone]; exact List.mem_singleton_self _) draft made

/-- A run over three logs that ends well. A file that has the name of the first draft is gone then, a file that a link of
the second draft's name leads to is overwritten, and a file has come to be where one of the third draft's name leads. -/
theorem run_disturbs_bystanders :
    let job : Job := ⟨[], ⟨"d".toList⟩, none, ⟨Pacer.defaultStep, .seconds, ".csv".toList, ".log".toList⟩⟩
    let notes : Location := [".a.log.csv".toList, "d".toList]
    let old : Location := ["old.txt".toList, "d".toList]
    let new : Location := ["new.txt".toList, "d".toList]
    let logs : List Path := [⟨"d/a.log".toList⟩, ⟨"d/b.log".toList⟩, ⟨"d/c.log".toList⟩]
    let tree := (((((((FileTree.empty.put ["d".toList] .directory).put ["a.log".toList, "d".toList]
      (.file (Utf8.encode "2018-08-13 02:00:00 height=1 v\n".toList))).put ["b.log".toList, "d".toList]
      (.file (Utf8.encode "2018-08-13 03:00:00 height=2 v\n".toList))).put ["c.log".toList, "d".toList]
      (.file (Utf8.encode "2018-08-13 04:00:00 height=3 v\n".toList))).put notes
      (.file (Utf8.encode "notes\n".toList))).put old (.file (Utf8.encode "old\n".toList))).put
      [".b.log.csv".toList, "d".toList] (.link ⟨"old.txt".toList⟩)).put
      [".c.log.csv".toList, "d".toList] (.link ⟨"new.txt".toList⟩)
    let after := (runJob (access []) job tree).2
    Job.ofArguments [] "d".toList [] [] = .ok job ∧
      (collectLogs (access []) job.input job.settings.extension tree).1 = .ok logs ∧
      (runJob (access []) job tree).1 = .ok 3 ∧
      (∀ place ∈ [notes, old, new], ∀ log ∈ logs, tree.locate [] log ≠ .ok place ∧
        tree.ownPlace? [] (job.outputFor tree [] log) ≠ some place) ∧
      [notes, old, new].map tree.entryAt =
        [some (.file (Utf8.encode "notes\n".toList)), some (.file (Utf8.encode "old\n".toList)), none] ∧
      [notes, old, new].map after.entryAt =
        [none, some (.file (Utf8.encode "date,elapsed time,height\n2018-08-13 03:00:00,0,2\n".toList)),
          some (.file (Utf8.encode "date,elapsed time,height\n2018-08-13 04:00:00,0,3\n".toList))] := by
  intro job notes old new logs tree after
  exact ⟨rfl, by decide +kernel, by decide +kernel, by decide +kernel, rfl, by decide +kernel⟩

end Cadence
