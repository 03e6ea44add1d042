import Cadence.Proofs.Conversion.OneLog
import Cadence.Proofs.Text.ByteOrder

/-!
The logs of one run, where no symbolic link and no two of the paths involved lead to the same entry. Each log is
then converted as it would be alone in the tree that the run begins with, one after the other: a run that ends well
leaves all their tables, and one that ends early those of the logs before the one that failed, whose failure is the
one that it has by itself (`runJob_one_by_one`).
-/

namespace Cadence

open FileTree

/-! ## What is supposed and what follows -/

/-- The outputs and the drafts of logs, as the tree is. -/
def Job.aims (job : Job) (here : Location) (tree : FileTree) (logs : List Path) : List Path :=
  logs.flatMap fun log => [job.outputFor tree here log, (job.outputFor tree here log).draft]

/-- There are no links; the outputs and the drafts of the logs lie in directories that are there and name entries of
which no two are the same and none is a log; and nothing stands where the drafts go. -/
structure Apart (job : Job) (here : Location) (tree : FileTree) (logs : List Path) : Prop where
  noLinks : ∀ place target, tree.entryAt place ≠ some (.link target)
  placed : ∀ path ∈ job.aims here tree logs, (tree.placeOf? here path).isSome = true
  distinct : ((job.aims here tree logs).filterMap (tree.placeOf? here)).Nodup
  notLogs : ∀ place ∈ (job.aims here tree logs).filterMap (tree.placeOf? here), ∀ log ∈ logs,
    tree.locate here log ≠ .ok place
  fresh : ∀ log ∈ logs, ∀ place, tree.placeOf? here (job.outputFor tree here log).draft = some place →
    tree.entryAt place = none

/-- The tree with files put into it one after the other. -/
def FileTree.withFiles (tree : FileTree) : List (Location × Bytes) → FileTree
  | [] => tree
  | (place, content) :: rest => (tree.put place (.file content)).withFiles rest

/-- The files are the complete tables of the logs at the entries that their outputs name. -/
inductive Outputs (job : Job) (here : Location) (tree : FileTree) : List Path → List (Location × Bytes) → Prop
  | nil : Outputs job here tree [] []
  | cons {log : Path} {rest : List Path} {place : Location} {count : Nat} {table : Bytes} {files : List (Location × Bytes)} :
      tree.placeOf? here (job.outputFor tree here log) = some place → IsTableOf job.settings here tree log count table →
      Outputs job here tree rest files → Outputs job here tree (log :: rest) ((place, table) :: files)

/-- What a run over these logs may come to: all outputs and the number of logs, or the outputs of the logs before one
that fails as it fails alone, and nothing else. -/
def OneByOne (job : Job) (here : Location) (tree : FileTree) (logs : List Path) : Except Failure Nat × FileTree → Prop
  | (.ok count, after) => count = logs.length ∧ ∃ files, Outputs job here tree logs files ∧ after = tree.withFiles files
  | (.error failure, after) => ∃ done log rest files, logs = done ++ log :: rest ∧ Outputs job here tree done files ∧
      after = tree.withFiles files ∧ convertAll (access here) job [log] tree = (.error failure, tree)

/-! ## One log among others -/

/-- A log whose conversion has its places. -/
structure Placed (job : Job) (here : Location) (tree : FileTree) where
  log : Path
  source : Location
  target : Parent
  directory : Location
  name : Text
  located : tree.locate here log = .ok source
  aim : tree.locateParent here (job.outputFor tree here log) = .ok target
  found : tree.locateParent here (job.outputFor tree here log).draft = .ok ⟨directory, name, false⟩
  free : tree.entryAt (name :: directory) = none
  noLink : ∀ path, tree.entryAt (target.name :: target.directory) ≠ some (.link path)

namespace Placed

variable {job : Job} {here : Location} {tree now : FileTree}

/-- The entry that the output names. -/
def place (placed : Placed job here tree) : Location := placed.target.name :: placed.target.directory

/-- The entry that the draft names. -/
def draftPlace (placed : Placed job here tree) : Location := placed.name :: placed.directory

/-- What the conversion comes to in the tree that it is placed in. -/
def outcome (placed : Placed job here tree) : Except Failure (Nat × Bytes) :=
  let output := job.outputFor tree here placed.log
  if tree.leadToSame here placed.log output then .error (.settings (.outputReplacesLog output))
  else tree.outcomeAt job.settings placed.log output placed.source placed.target

theorem convertEach_cons (positive : 0 < job.settings.step.nanoseconds) (placed : Placed job here tree) (count : Nat)
    (rest : List Path) : convertEach (access here) job count (placed.log :: rest) tree =
      match placed.outcome with
      | .error failure => (.error failure, tree)
      | .ok (rows, table) => convertEach (access here) job (count + rows) rest (tree.put placed.place (.file table)) := by
  rw [convertEach_cons_run, outcome]
  by_cases same : tree.leadToSame here placed.log (job.outputFor tree here placed.log) = true
  · rw [if_pos same, if_pos same]
  · rw [if_neg same, if_neg same, convertFile_of_places positive placed.found placed.free placed.located placed.aim]
    cases tree.outcomeAt job.settings placed.log (job.outputFor tree here placed.log) placed.source placed.target with
    | error failure => rfl
    | ok made => rfl

/-- Another tree agrees with the first on all that the conversion of a log depends on. -/
structure Agrees (placed : Placed job here tree) (now : FileTree) : Prop where
  forth : Keeps tree now
  back : Keeps now tree
  source : now.entryAt placed.source = tree.entryAt placed.source
  place : now.entryAt placed.place = tree.entryAt placed.place
  draftPlace : now.entryAt placed.draftPlace = tree.entryAt placed.draftPlace

end Placed

theorem FileTree.Keeps.outputFor {before after : FileTree} (forth : Keeps before after) (back : Keeps after before)
    (job : Job) (here : Location) (log : Path) : job.outputFor after here log = job.outputFor before here log := by
  have same : ∀ path, after.leadsToDirectory here path = before.leadsToDirectory here path := by
    intro path
    rw [Bool.eq_iff_iff, leadsToDirectory_iff, leadsToDirectory_iff]
    constructor
    · rintro ⟨location, located, inside⟩
      exact ⟨location, back.locate (back.entryAt_directory inside) located, back.directories location inside⟩
    · rintro ⟨location, located, inside⟩
      exact ⟨location, forth.locate (forth.entryAt_directory inside) located, forth.directories location inside⟩
  unfold Job.outputFor
  cases job.output with
  | none => rfl
  | some output => simp only [same]

theorem FileTree.canonical_of_locate {tree : FileTree} {here location : Location} {path : Path}
    (located : tree.locate here path = .ok location) : tree.canonical here path = .ok location := by
  obtain ⟨valid, followed⟩ := locate_eq_ok_iff.mp located
  obtain ⟨noNul, something, _⟩ := pathFault?_eq_none_iff.mp valid
  rw [canonical, if_neg noNul, if_neg something, followed]

namespace Placed

section
variable {job : Job} {here : Location} {tree now : FileTree} {placed : Placed job here tree} (agrees : placed.Agrees now)
include agrees

/-- The same log in a tree that agrees. -/
def moved : Placed job here now where
  log := placed.log
  source := placed.source
  target := placed.target
  directory := placed.directory
  name := placed.name
  located := agrees.forth.locate agrees.source placed.located
  aim := by
    rw [agrees.forth.outputFor agrees.back]
    exact agrees.forth.locateParent placed.aim
  found := by
    rw [agrees.forth.outputFor agrees.back]
    exact agrees.forth.locateParent placed.found
  free := agrees.draftPlace.trans placed.free
  noLink path := by
    rw [show now.entryAt (placed.target.name :: placed.target.directory) = _ from agrees.place]
    exact placed.noLink path

theorem canonical_output : now.canonical here (job.outputFor tree here placed.log) =
    tree.canonical here (job.outputFor tree here placed.log) := by
  have linkless : ∀ path, now.entryAt (placed.target.name :: placed.target.directory) ≠ some (.link path) := by
    intro path
    rw [show now.entryAt (placed.target.name :: placed.target.directory) = _ from agrees.place]
    exact placed.noLink path
  have same : now.entryAt (placed.target.name :: placed.target.directory) =
      tree.entryAt (placed.target.name :: placed.target.directory) := agrees.place
  unfold canonical
  rw [follow_of_locateParent (agrees.forth.locateParent placed.aim) linkless,
    follow_of_locateParent placed.aim placed.noLink, same]

theorem outcome_moved : (moved agrees).outcome = placed.outcome := by
  have output : job.outputFor now here placed.log = job.outputFor tree here placed.log :=
    agrees.forth.outputFor agrees.back job here placed.log
  have canonicalLog : now.canonical here placed.log = tree.canonical here placed.log := by
    rw [canonical_of_locate placed.located,
      canonical_of_locate (agrees.forth.locate agrees.source placed.located)]
  have compared : now.leadToSame here placed.log (job.outputFor tree here placed.log) =
      tree.leadToSame here placed.log (job.outputFor tree here placed.log) := by
    rw [leadToSame, leadToSame, canonicalLog, canonical_output agrees]
  have read : now.readAt placed.source = tree.readAt placed.source := by
    rw [readAt, readAt, contentAt, contentAt, agrees.source]
  have inside : now.isDirectoryAt (placed.target.name :: placed.target.directory) =
      tree.isDirectoryAt (placed.target.name :: placed.target.directory) := by
    rw [FileTree.isDirectoryAt, FileTree.isDirectoryAt,
      show now.entryAt (placed.target.name :: placed.target.directory) = _ from agrees.place]
    rfl
  have made : now.outcomeAt job.settings placed.log (job.outputFor tree here placed.log) placed.source placed.target =
      tree.outcomeAt job.settings placed.log (job.outputFor tree here placed.log) placed.source placed.target := by
    rw [outcomeAt, outcomeAt, tableAt, tableAt, read, inside]
  have stated : (moved agrees).outcome =
      (if now.leadToSame here placed.log (job.outputFor now here placed.log) then
        .error (.settings (.outputReplacesLog (job.outputFor now here placed.log)))
      else now.outcomeAt job.settings placed.log (job.outputFor now here placed.log) placed.source placed.target) := rfl
  rw [stated, output, compared, made]
  rfl

end

theorem isTableOf_of_outcome {job : Job} {here : Location} {tree : FileTree} {placed : Placed job here tree}
    (positive : 0 < job.settings.step.nanoseconds) {rows : Nat} {table : Bytes} (made : placed.outcome = .ok (rows, table)) :
    IsTableOf job.settings here tree placed.log rows table ∧ tree.isDirectoryAt placed.place = false := by
  rw [outcome] at made
  split at made
  · contradiction
  · rw [outcomeAt] at made
    split at made
    · contradiction
    · rename_i count sink tabled
      split at made
      · contradiction
      · split at made
        · contradiction
        · rename_i outside
          cases made
          exact ⟨isTableOf_of_tableAt positive placed.located tabled, Bool.eq_false_iff.mpr outside⟩

theorem placeOf?_output {job : Job} {here : Location} {tree : FileTree} (placed : Placed job here tree) :
    tree.placeOf? here (job.outputFor tree here placed.log) = some placed.place := by
  rw [placeOf?, placed.aim]
  rfl

/-- The output of the first log is nothing that the conversion of the second depends on. -/
def Apart {job : Job} {here : Location} {tree : FileTree} (first second : Placed job here tree) : Prop :=
  second.source ≠ first.place ∧ second.place ≠ first.place ∧ second.draftPlace ≠ first.place

/-- A table put in the place of one log changes nothing that the conversion of another depends on. -/
theorem Agrees.put {job : Job} {here : Location} {tree now : FileTree} {first second : Placed job here tree}
    (agreesFirst : first.Agrees now) (agrees : second.Agrees now) (apart : first.Apart second)
    (outside : tree.isDirectoryAt first.place = false) (table : Bytes) :
    second.Agrees (now.put first.place (.file table)) := by
  have proper : first.place ≠ [] := List.cons_ne_nil _ _
  have noDirectory : now.entryAt first.place ≠ some .directory := by
    intro inside
    rw [agreesFirst.place, ← isDirectoryAt_iff, outside] at inside
    contradiction
  have noLink : ∀ path, now.entryAt first.place ≠ some (.link path) := by
    intro path linked
    rw [agreesFirst.place] at linked
    exact first.noLink path linked
  obtain ⟨source, place, draftPlace⟩ := apart
  refine ⟨agrees.forth.trans (keeps_put table proper noDirectory noLink), (keeps_of_put table proper).trans agrees.back,
    ?_, ?_, ?_⟩
  · rw [entryAt_put_of_ne now proper _ source, agrees.source]
  · rw [entryAt_put_of_ne now proper _ place, agrees.place]
  · rw [entryAt_put_of_ne now proper _ draftPlace, agrees.draftPlace]

end Placed

/-! ## The loop -/

/-- What the loop may come to over logs that have their places, from the tree `now`. -/
def ComesTo {job : Job} {here : Location} {tree : FileTree} (all : List (Placed job here tree)) (now : FileTree) :
    Except Failure Nat × FileTree → Prop
  | (.ok _, after) => ∃ files, Outputs job here tree (all.map Placed.log) files ∧ after = now.withFiles files
  | (.error failure, after) => ∃ done placed rest files, all = done ++ placed :: rest ∧
      Outputs job here tree (done.map Placed.log) files ∧ after = now.withFiles files ∧ placed.outcome = .error failure

/-- Logs that have their places are converted one after the other as they would be in the first tree, as long as
nothing has changed there that those still to come depend on. -/
theorem convertEach_placed {job : Job} {here : Location} {tree : FileTree} (positive : 0 < job.settings.step.nanoseconds)
    (all : List (Placed job here tree)) : ∀ (count : Nat) (now : FileTree), all.Pairwise Placed.Apart →
    (∀ placed ∈ all, placed.Agrees now) →
    ComesTo all now (convertEach (access here) job count (all.map Placed.log) now) := by
  induction all with
  | nil => intro count now _ _; exact ⟨[], .nil, rfl⟩
  | cons placed rest ih =>
    intro count now apart agrees
    obtain ⟨first, others⟩ := List.pairwise_cons.mp apart
    have same := agrees placed List.mem_cons_self
    have step := Placed.convertEach_cons positive (Placed.moved same) count (rest.map Placed.log)
    rw [Placed.outcome_moved same] at step
    rw [List.map_cons, show placed.log = (Placed.moved same).log from rfl, step]
    cases made : placed.outcome with
    | error failure => exact ⟨[], placed, rest, [], rfl, .nil, rfl, made⟩
    | ok result =>
      obtain ⟨rows, table⟩ := result
      obtain ⟨complete, outside⟩ := Placed.isTableOf_of_outcome positive made
      have onward := ih (count + rows) (now.put placed.place (.file table)) others fun other member =>
        same.put (agrees other (List.mem_cons_of_mem _ member)) (first other member) outside table
      show ComesTo (placed :: rest) now
        (convertEach (access here) job (count + rows) (rest.map Placed.log) (now.put placed.place (.file table)))
      generalize convertEach (access here) job (count + rows) (rest.map Placed.log)
        (now.put placed.place (.file table)) = result at onward ⊢
      obtain ⟨outcome, after⟩ := result
      cases outcome with
      | ok total =>
        obtain ⟨files, outputs, rfl⟩ := onward
        exact ⟨(placed.place, table) :: files, .cons placed.placeOf?_output complete outputs, rfl⟩
      | error failure =>
        obtain ⟨done, failed, left, files, rfl, outputs, rfl, fails⟩ := onward
        exact ⟨placed :: done, failed, left, (placed.place, table) :: files, rfl,
          .cons placed.placeOf?_output complete outputs, rfl, fails⟩

/-! ## Runs -/

section
variable {job : Job} {here : Location} {tree : FileTree}

theorem FileTree.locate_of_isDirectory {path : Path} {directory : Bool}
    (looked : tree.isDirectory here path = .ok directory) : ∃ location, tree.locate here path = .ok location := by
  unfold FileTree.isDirectory at looked
  cases located : tree.locate here path with
  | error fault => simp [located, Except.map] at looked
  | ok location => exact ⟨location, rfl⟩

theorem FileTree.located_of_logsOf {input : Path} {extension : Text} {logs : List Path}
    (collected : tree.logsOf here input extension = .ok logs) :
    ∀ log ∈ logs, ∃ location, tree.locate here log = .ok location := by
  unfold logsOf at collected
  intro log member
  split at collected
  · contradiction
  · rename_i single
    obtain rfl := Except.ok.inj collected
    obtain rfl := List.mem_singleton.mp member
    exact locate_of_isDirectory single
  · split at collected
    · contradiction
    · obtain rfl := Except.ok.inj collected
      obtain ⟨name, named, rfl⟩ := List.mem_map.mp member
      have file := (List.mem_filter.mp ((sortBy_perm id _).mem_iff.mp named)).2
      rw [Bool.and_eq_true, leadsToFile] at file
      cases located : tree.locate here (input.join ⟨name⟩) with
      | error fault => simp [located] at file
      | ok location => exact ⟨location, rfl⟩

theorem Placed.ofLog {log : Path} {source : Location} (noLinks : ∀ place target, tree.entryAt place ≠ some (.link target))
    (output : (tree.placeOf? here (job.outputFor tree here log)).isSome = true)
    (draft : (tree.placeOf? here (job.outputFor tree here log).draft).isSome = true)
    (fresh : ∀ place, tree.placeOf? here (job.outputFor tree here log).draft = some place → tree.entryAt place = none)
    (located : tree.locate here log = .ok source) : ∃ placed : Placed job here tree, placed.log = log := by
  unfold placeOf? at output draft fresh
  cases aim : tree.locateParent here (job.outputFor tree here log) with
  | error fault => simp [aim] at output
  | ok target =>
    cases found : tree.locateParent here (job.outputFor tree here log).draft with
    | error fault => simp [found] at draft
    | ok parent =>
      obtain ⟨_, names, whole, ⟨notHere, notUp, _⟩, _⟩ := locateParent_eq_ok_iff.mp aim
      obtain ⟨_, _, _, _, slash, _⟩ := locateParent_eq_ok_iff.mp found
      rw [Path.slashAfter_of_draft (by rw [whole, List.getLast?_concat]) notHere notUp] at slash
      obtain ⟨directory, name, slashAfter⟩ := parent
      obtain rfl : slashAfter = false := slash
      exact ⟨⟨log, source, target, directory, name, located, aim, found, fresh _ (by rw [found]), noLinks _⟩, rfl⟩

theorem Placed.placeOf?_draft (placed : Placed job here tree) :
    tree.placeOf? here (job.outputFor tree here placed.log).draft = some placed.draftPlace := by
  rw [placeOf?, placed.found]
  rfl

theorem Job.aims_cons (job : Job) (here : Location) (tree : FileTree) (log : Path) (rest : List Path) :
    job.aims here tree (log :: rest) =
      job.outputFor tree here log :: (job.outputFor tree here log).draft :: job.aims here tree rest := by
  rw [aims, aims, List.flatMap_cons]
  rfl

theorem Apart.tail {log : Path} {rest : List Path} (apart : Apart job here tree (log :: rest)) :
    Apart job here tree rest := by
  obtain ⟨noLinks, placed, distinct, notLogs, fresh⟩ := apart
  rw [Job.aims_cons] at placed distinct notLogs
  refine ⟨noLinks, fun path member => placed path (by simp [member]), ?_, ?_,
    fun log member => fresh log (List.mem_cons_of_mem _ member)⟩
  · refine List.Nodup.sublist (List.Sublist.filterMap _ ?_) distinct
    exact List.Sublist.cons _ (List.Sublist.cons _ (List.Sublist.refl _))
  · intro place member other inside
    refine notLogs place ?_ other (List.mem_cons_of_mem _ inside)
    obtain ⟨path, aim, same⟩ := List.mem_filterMap.mp member
    exact List.mem_filterMap.mpr ⟨path, by simp [aim], same⟩

/-- The logs of which the supposition speaks have their places, apart from each other. -/
theorem Apart.exists_placed (logs : List Path) : Apart job here tree logs →
    (∀ log ∈ logs, ∃ location, tree.locate here log = .ok location) →
    ∃ all : List (Placed job here tree), all.map Placed.log = logs ∧ all.Pairwise Placed.Apart := by
  induction logs with
  | nil => intro _ _; exact ⟨[], rfl, .nil⟩
  | cons log rest ih =>
    intro apart located
    obtain ⟨all, same, others⟩ := ih apart.tail fun other member => located other (List.mem_cons_of_mem _ member)
    obtain ⟨source, here'⟩ := located log List.mem_cons_self
    obtain ⟨noLinks, placedAt, distinct, notLogs, fresh⟩ := apart
    rw [Job.aims_cons] at placedAt distinct notLogs
    obtain ⟨placed, rfl⟩ := Placed.ofLog noLinks (placedAt _ (by simp)) (placedAt _ (by simp))
      (fresh _ List.mem_cons_self) here'
    refine ⟨placed :: all, by rw [List.map_cons, same], List.pairwise_cons.mpr ⟨?_, others⟩⟩
    intro other member
    have logMember : other.log ∈ rest := by
      rw [← same]
      exact List.mem_map_of_mem member
    have output : job.outputFor tree here other.log ∈ job.aims here tree rest :=
      List.mem_flatMap.mpr ⟨other.log, logMember, by simp⟩
    have draft : (job.outputFor tree here other.log).draft ∈ job.aims here tree rest :=
      List.mem_flatMap.mpr ⟨other.log, logMember, by simp⟩
    rw [List.filterMap_cons_some placed.placeOf?_output, List.filterMap_cons_some placed.placeOf?_draft,
      List.nodup_cons] at distinct
    refine ⟨?_, ?_, ?_⟩
    · intro clash
      refine notLogs placed.place ?_ other.log (List.mem_cons_of_mem _ logMember) (clash ▸ other.located)
      rw [List.filterMap_cons_some placed.placeOf?_output]
      exact List.mem_cons_self
    · intro clash
      refine distinct.1 (List.mem_cons_of_mem _ (List.mem_filterMap.mpr ⟨_, output, ?_⟩))
      rw [other.placeOf?_output, clash]
    · intro clash
      refine distinct.1 (List.mem_cons_of_mem _ (List.mem_filterMap.mpr ⟨_, draft, ?_⟩))
      rw [other.placeOf?_draft, clash]

/-- Outputs of several logs that name different entries are in a directory. -/
theorem Apart.refusesLogs {logs : List Path} (apart : Apart job here tree logs) : job.refusesLogs tree here logs = none := by
  unfold Job.refusesLogs
  cases asked : job.output with
  | none => rfl
  | some output =>
    simp only
    rw [if_neg]
    rintro ⟨several, outside⟩
    have same : ∀ log, job.outputFor tree here log = output := by
      intro log
      rw [Job.outputFor, asked]
      simp only [outside, Bool.false_eq_true, if_false]
    obtain ⟨_, placed, distinct, _, _⟩ := apart
    match logs, several with
    | first :: second :: rest, _ =>
      rw [Job.aims_cons, Job.aims_cons, same, same] at placed distinct
      obtain ⟨place, named⟩ := Option.isSome_iff_exists.mp (placed output (by simp))
      obtain ⟨draft, draftNamed⟩ := Option.isSome_iff_exists.mp (placed output.draft (by simp))
      rw [List.filterMap_cons_some named, List.filterMap_cons_some draftNamed, List.filterMap_cons_some named,
        List.nodup_cons] at distinct
      exact distinct.1 (List.mem_cons_of_mem _ List.mem_cons_self)

end

/-- The logs of a run are converted by themselves and in order. -/
theorem runJob_one_by_one (job : Job) (positive : 0 < job.settings.step.nanoseconds) (here : Location) (tree : FileTree)
    (logs : List Path) (collected : (collectLogs (access here) job.input job.settings.extension tree).1 = .ok logs)
    (apart : Apart job here tree logs) : OneByOne job here tree logs (runJob (access here) job tree) := by
  replace collected : tree.logsOf here job.input job.settings.extension = .ok logs := by
    rw [← collected, collectLogs_run]
  obtain ⟨all, rfl, pairwise⟩ := apart.exists_placed logs (located_of_logsOf collected)
  have looped := convertEach_placed positive all 0 tree pairwise fun placed _ =>
    ⟨Keeps.refl tree, Keeps.refl tree, rfl, rfl, rfl⟩
  rw [runJob_run, collected]
  simp only [convertAll_run, apart.refusesLogs]
  generalize convertEach (access here) job 0 (all.map Placed.log) tree = result at looped ⊢
  obtain ⟨outcome, after⟩ := result
  cases outcome with
  | ok count =>
    obtain ⟨files, outputs, same⟩ := looped
    exact ⟨rfl, files, outputs, same⟩
  | error failure =>
    obtain ⟨done, placed, rest, files, rfl, outputs, same, fails⟩ := looped
    refine ⟨done.map Placed.log, placed.log, rest.map Placed.log, files, by simp, outputs, same, ?_⟩
    have alone : job.refusesLogs tree here [placed.log] = none := by
      unfold Job.refusesLogs
      cases job.output <;> simp
    rw [convertAll_run, alone, Placed.convertEach_cons positive placed, fails]

/-- A run over a directory of two logs, each of one line. -/
theorem runJob_one_by_one_of_two_logs :
    let settings : Settings := ⟨Pacer.defaultStep, .seconds, ".csv".toList, ".log".toList⟩
    let job : Job := ⟨"convert".toList, ⟨"d".toList⟩, none, settings⟩
    let content := Utf8.encode "2018-08-13 02:00:00 height=1 v\n".toList
    let tree := ((FileTree.empty.put ["d".toList] .directory).put ["a.log".toList, "d".toList] (.file content)).put
      ["b.log".toList, "d".toList] (.file content)
    let logs : List Path := [⟨"d/a.log".toList⟩, ⟨"d/b.log".toList⟩]
    Job.ofArguments "convert".toList "d".toList [] [] = .ok job ∧
      (collectLogs (access []) job.input job.settings.extension tree).1 = .ok logs ∧
      Apart job [] tree logs ∧ OneByOne job [] tree logs (runJob (access []) job tree) := by
  intro settings job content tree logs
  have accepted : Job.ofArguments "convert".toList "d".toList [] [] = .ok job := rfl
  have collected : (collectLogs (access []) job.input job.settings.extension tree).1 = .ok logs := rfl
  have apart : Apart job [] tree logs := by
    refine ⟨noLinks_of_entries ?_, by decide +kernel, by decide +kernel, by decide +kernel, ?_⟩
    · rintro pair (_ | ⟨_, _ | ⟨_, _ | ⟨_, ⟨⟩⟩⟩⟩) path ⟨⟩
    · intro log member place named
      have fresh : ∀ log ∈ logs, ∀ place ∈ tree.placeOf? [] (job.outputFor tree [] log).draft,
          tree.entryAt place = none := by
        decide +kernel
      exact fresh log member place named
  clear_value job tree logs
  have positive := Job.step_pos_of_ofArguments accepted
  exact ⟨accepted, collected, apart, runJob_one_by_one job positive [] tree logs collected apart⟩

end Cadence
