import Cadence.Proofs.Conversion.Meaning
import Cadence.Proofs.Conversion.Runs
import Cadence.Proofs.FileTree.Changes
import Cadence.Proofs.FileTree.Drafts

/-!
The conversion of one log, where nothing stands in the way of its draft. Whatever goes wrong, the tree is as it
was, to the order of its entries; if nothing does, the complete table stands at the entry that the output names
and all else is as it was (`convertFile_all_or_nothing`).
-/

namespace Cadence

open FileTree

/-! ## The steps of a conversion -/

/-- Converting lines under a positive step ends well, at a stamp that names no real time, or as the log cannot be read. -/
theorem Settings.outcome_cases {settings : Settings} (positive : 0 < settings.step.nanoseconds)
    (log target : Path) (content : Except IoError Bytes) {outcome : Except Failure Nat}
    (converted : (settings.convertLines log target (linesRead content) .unlimited).1 = outcome) :
    (∃ count, outcome = .ok count) ∨ (∃ number stamp, outcome = .error (.badTimestamp number stamp)) ∨
      ∃ cause, outcome = .error (.io log cause) := by
  cases content with
  | error cause =>
    rw [convertLines_of_error] at converted
    exact .inr (.inr ⟨cause, converted.symm⟩)
  | ok bytes =>
    obtain ⟨result, written, ends, means⟩ := means_of_step_pos positive log target bytes
    rw [ends] at converted
    obtain rfl : result = outcome := converted
    exact means.outcome_cases.imp_right .inl

theorem Settings.outcome_ne_overflow {settings : Settings} (positive : 0 < settings.step.nanoseconds)
    (log target : Path) (content : Except IoError Bytes) :
    (settings.convertLines log target (linesRead content) .unlimited).1 ≠ .error .overflow := by
  intro overflows
  obtain ⟨_, ends⟩ | ⟨_, _, ends⟩ | ⟨_, ends⟩ := outcome_cases positive log target content overflows
  all_goals cases ends

section
variable {tree : FileTree} {here : Location}

section
variable {path : Path} {directory : Location} {name : Text}
  (found : tree.locateParent here path = .ok ⟨directory, name, false⟩)
  (free : tree.entryAt (name :: directory) = none)
include found free

theorem FileTree.locateParent_put (content : Bytes) :
    (tree.put (name :: directory) (.file content)).locateParent here path = .ok ⟨directory, name, false⟩ :=
  (keeps_put content (List.cons_ne_nil _ _) (by simp [free]) (by simp [free])).locateParent found

theorem FileTree.removedAt_put (content : Bytes) :
    (tree.put (name :: directory) (.file content)).removedAt here path = tree := by
  rw [removedAt, remove, locateParent_put found free content]
  simp [erase_put _ free]

theorem FileTree.rename_put {target : Path} {new : Parent} (aim : tree.locateParent here target = .ok new)
    (content : Bytes) : (tree.put (name :: directory) (.file content)).rename here path target =
      if new.slashAfter = true then .error .notADirectory
      else if tree.isDirectoryAt (new.name :: new.directory) then .error .isADirectory
      else .ok (tree.put (new.name :: new.directory) (.file content)) := by
  have proper : name :: directory ≠ [] := List.cons_ne_nil _ _
  have keeps : Keeps tree (tree.put (name :: directory) (.file content)) :=
    keeps_put content proper (by simp [free]) (by simp [free])
  have stands : (tree.put (name :: directory) (.file content)).entryAt (name :: directory) = some (.file content) :=
    entryAt_put_self tree proper _
  have sameDirectory : (tree.put (name :: directory) (.file content)).isDirectoryAt (new.name :: new.directory) =
      tree.isDirectoryAt (new.name :: new.directory) := by
    rw [Bool.eq_iff_iff]
    exact ⟨(keeps_of_put content proper).directories _, keeps.directories _⟩
  rw [rename, keeps.locateParent found, keeps.locateParent aim]
  simp only [stands, Bool.false_or, sameDirectory, move_put _ _ _ free]
  by_cases slash : new.slashAfter = true
  · rw [if_pos slash, if_pos slash]
  · rw [if_neg slash, if_neg slash]
    by_cases inside : tree.isDirectoryAt (new.name :: new.directory) = true
    · rw [if_pos inside, if_pos inside]
    · rw [if_neg inside, if_neg inside]
      by_cases same : name :: directory = new.name :: new.directory
      · rw [if_pos same, same]
      · rw [if_neg same]

theorem FileTree.put_of_rename {target : Path} {content : Bytes} {after : FileTree}
    (renamed : (tree.put (name :: directory) (.file content)).rename here path target = .ok after) :
    ∃ new, tree.locateParent here target = .ok new ∧ after = tree.put (new.name :: new.directory) (.file content) := by
  cases aim : (tree.put (name :: directory) (.file content)).locateParent here target with
  | error fault =>
    rw [rename, locateParent_put found free content, aim] at renamed
    contradiction
  | ok new =>
    have before := (keeps_of_put content (List.cons_ne_nil _ _)).locateParent aim
    rw [rename_put found free before] at renamed
    split at renamed
    · contradiction
    · split at renamed
      · contradiction
      · exact ⟨new, before, (Except.ok.inj renamed).symm⟩

end

/-! ## Whole conversions -/

/-- What a file holds that is read at a location, as a conversion reads it. -/
def FileTree.readAt (tree : FileTree) (location : Location) : Except IoError Bytes :=
  looked (tree.contentAt location)

/-- The table that a conversion makes of what is read at a location, and how it ends. -/
def FileTree.tableAt (settings : Settings) (log target : Path) (tree : FileTree) (location : Location) :
    Except Failure Nat × Csv.Sink :=
  settings.convertLines log target (Settings.linesRead (tree.readAt location)) .unlimited

theorem Settings.Means.rows {settings : Settings} {bytes table : Bytes} {count : Nat}
    (means : settings.Means bytes (.ok count) table) :
    ∃ rows, Csv.read? table = some (Row.header :: rows) ∧ rows.length = count := by
  obtain ⟨_, _, samples, selected, _, _, _, ⟨same, _⟩, _, read, ⟨_, counted⟩ | ⟨_, _, _, _, _, failed⟩⟩ := means
  · refine ⟨_, read, ?_⟩
    rw [List.length_map, length_picked selected (by rw [same, List.length_map])]
    exact (Except.ok.inj counted).symm
  · contradiction

/-- The table is the complete one of the log, with so many rows, as the tree is. -/
def IsTableOf (settings : Settings) (here : Location) (tree : FileTree) (log : Path) (count : Nat) (table : Bytes) : Prop :=
  ∃ source content, tree.locate here log = .ok source ∧ tree.contentAt source = .ok content ∧
    settings.Means content (.ok count) table ∧ ∃ rows, Csv.read? table = some (Row.header :: rows) ∧ rows.length = count

/-- Where a conversion counts rows it has made the complete table. -/
theorem isTableOf_of_tableAt {settings : Settings} (positive : 0 < settings.step.nanoseconds) {log target : Path}
    {source : Location} {count : Nat} {sink : Csv.Sink} (located : tree.locate here log = .ok source)
    (tabled : tree.tableAt settings log target source = (.ok count, sink)) :
    IsTableOf settings here tree log count sink.taken := by
  rw [tableAt, readAt] at tabled
  cases read : tree.contentAt source with
  | error fault =>
    rw [read, looked, Settings.convertLines_of_error] at tabled
    cases (Prod.mk.inj tabled).1
  | ok content =>
    obtain ⟨outcome, table, written, means⟩ := Settings.means_of_step_pos positive log target content
    rw [read, looked, written] at tabled
    obtain ⟨rfl, rfl⟩ := Prod.mk.inj tabled
    exact ⟨source, content, located, read, means, means.rows⟩

/-- A conversion whose draft has a place of its own: the draft leaves no trace. -/
theorem convertFile_of_draft {settings : Settings} (positive : 0 < settings.step.nanoseconds) {log output : Path}
    {directory source : Location} {name : Text}
    (found : tree.locateParent here output.draft = .ok ⟨directory, name, false⟩)
    (free : tree.entryAt (name :: directory) = none) (located : tree.locate here log = .ok source) :
    convertFile (access here) settings log output tree =
      match tree.tableAt settings log output.draft source with
      | (.error failure, _) => (.error failure, tree)
      | (.ok count, sink) =>
        match (tree.put (name :: directory) (.file sink.taken)).rename here output.draft output with
        | .error fault => (.error (.io output fault.error), tree)
        | .ok after => (.ok count, after) := by
  have proper : name :: directory ≠ [] := List.cons_ne_nil _ _
  have elsewhere : source ≠ name :: directory := by
    rintro rfl
    obtain ⟨entry, stands⟩ := exists_entryAt_of_locate located
    rw [free] at stands
    contradiction
  have reads : looked ((tree.put (name :: directory) (.file [])).contentAt source) = tree.readAt source := by
    rw [readAt, contentAt, contentAt, entryAt_put_of_ne tree proper _ elsewhere]
  have noOverflow := Settings.outcome_ne_overflow positive log output.draft (tree.readAt source)
  simp only [convertFile_run, located, writeOutput_run, create_of_locateParent found free, reads, setContent, put_put]
  rw [← tableAt]
  rw [← tableAt] at noOverflow
  generalize tree.tableAt settings log output.draft source = result at noOverflow ⊢
  obtain ⟨outcome, sink⟩ := result
  cases outcome with
  | error failure =>
    cases failure with
    | overflow => exact absurd rfl noOverflow
    | _ => simp only [removedAt_put found free]
  | ok count =>
    simp only
    cases (tree.put (name :: directory) (.file sink.taken)).rename here output.draft output with
    | error fault => simp only [removedAt_put found free]
    | ok after => rfl

/-- What a conversion comes to whose output is the entry `target`: the number of rows and the table, or an error. -/
def FileTree.outcomeAt (settings : Settings) (log output : Path) (tree : FileTree) (source : Location) (target : Parent) :
    Except Failure (Nat × Bytes) :=
  match tree.tableAt settings log output.draft source with
  | (.error failure, _) => .error failure
  | (.ok count, sink) =>
    if target.slashAfter = true then .error (.io output FileFault.notADirectory.error)
    else if tree.isDirectoryAt (target.name :: target.directory) then .error (.io output FileFault.isADirectory.error)
    else .ok (count, sink.taken)

/-- A conversion whose draft and whose output have places of their own. -/
theorem convertFile_of_places {settings : Settings} (positive : 0 < settings.step.nanoseconds) {log output : Path}
    {directory source : Location} {name : Text} {target : Parent}
    (found : tree.locateParent here output.draft = .ok ⟨directory, name, false⟩)
    (free : tree.entryAt (name :: directory) = none) (located : tree.locate here log = .ok source)
    (aim : tree.locateParent here output = .ok target) :
    convertFile (access here) settings log output tree =
      match tree.outcomeAt settings log output source target with
      | .error failure => (.error failure, tree)
      | .ok (count, table) => (.ok count, tree.put (target.name :: target.directory) (.file table)) := by
  rw [convertFile_of_draft positive found free located, outcomeAt]
  rcases tree.tableAt settings log output.draft source with ⟨outcome, sink⟩
  cases outcome with
  | error failure => rfl
  | ok count =>
    simp only [rename_put found free aim]
    by_cases slash : target.slashAfter = true
    · simp only [slash, if_true]
    · by_cases inside : tree.isDirectoryAt (target.name :: target.directory) = true
      · simp only [slash, inside, if_true, Bool.false_eq_true, if_false]
      · simp only [slash, inside, Bool.false_eq_true, if_false]

/-- Nothing stands at a draft after a new file has taken the place of its output. -/
theorem FileTree.nothingAt_draft_put {output : Path} {old new : Parent} (content : Bytes)
    (draft : tree.locateParent here output.draft = .ok old) (free : tree.entryAt (old.name :: old.directory) = none)
    (target : tree.locateParent here output = .ok new) :
    (tree.put (new.name :: new.directory) (.file content)).NothingAt here output.draft := by
  have proper : new.name :: new.directory ≠ [] := List.cons_ne_nil _ _
  obtain ⟨_, names, whole, named, _⟩ := locateParent_eq_ok_iff.mp draft
  refine nothingAt_of_unnamed whole named ?_
  intro parent found
  have same := draft.symm.trans ((keeps_of_put content proper).locateParent found)
  cases Except.ok.inj same
  rw [entryAt_put_of_ne tree proper, free]
  intro sameEntry
  exact draft_name_ne draft target (List.cons.inj sameEntry).1

/-- What a conversion may come to: an error and the tree as it was, or all rows and the tree with the complete table
at the entry that the output names, and no draft. -/
def AllOrNothing (settings : Settings) (here : Location) (tree : FileTree) (log output : Path) :
    Except Failure Nat × FileTree → Prop
  | (.error _, after) => after = tree
  | (.ok count, after) => ∃ target table, IsTableOf settings here tree log count table ∧
      tree.locateParent here output = .ok target ∧
      after = tree.put (target.name :: target.directory) (.file table) ∧ after.NothingAt here output.draft

/-- A conversion whose draft is in nobody's way does all or nothing. Of the settings it matters only that the step is
positive, as it is in all that are accepted. -/
theorem convertFile_all_or_nothing (settings : Settings) (positive : 0 < settings.step.nanoseconds) (here : Location)
    (tree : FileTree) (log output : Path) (nothing : tree.NothingAt here output.draft) :
    AllOrNothing settings here tree log output (convertFile (access here) settings log output tree) := by
  cases located : tree.locate here log with
  | error fault =>
    simp [AllOrNothing, located]
  | ok source =>
    cases created : tree.create here output.draft with
    | error fault =>
      obtain ⟨stays, nothingRemoved⟩ := remove_of_nothing nothing
      simp [AllOrNothing, located, created, removedAt, nothingRemoved]
    | ok made =>
      obtain ⟨draft, made⟩ := made
      obtain ⟨directory, name, found, rfl, free, _⟩ := create_of_nothing nothing created
      rw [convertFile_of_draft positive found free located]
      cases tabled : tree.tableAt settings log output.draft source with
      | mk outcome sink =>
        cases outcome with
        | error failure => rfl
        | ok count =>
          simp only
          cases renamed : (tree.put (name :: directory) (.file sink.taken)).rename here output.draft output with
          | error fault => rfl
          | ok after =>
            obtain ⟨target, aim, rfl⟩ := put_of_rename found free renamed
            exact ⟨target, sink.taken, isTableOf_of_tableAt positive located tabled, aim, rfl,
              nothingAt_draft_put sink.taken found free aim⟩

/-- The conversion of a log of two lines whose table goes beside it. -/
theorem convertFile_all_or_nothing_of_two_lines :
    let settings : Settings := ⟨Pacer.defaultStep, .seconds, ".csv".toList, ".log".toList⟩
    let tree := FileTree.empty.put ["a.log".toList]
      (.file (Utf8.encode "2018-08-13 02:00:00 height=1 v\n2018-08-13 03:00:00 height=2 v\n".toList))
    let log : Path := ⟨"a.log".toList⟩
    let output : Path := ⟨"a.log.csv".toList⟩
    Settings.ofOptions [] = .ok settings ∧ tree.NothingAt [] output.draft ∧
      AllOrNothing settings [] tree log output (convertFile (access []) settings log output tree) := by
  intro settings tree log output
  have accepted : Settings.ofOptions [] = .ok settings := rfl
  have nothing : tree.NothingAt [] output.draft := by
    constructor
    · intro location located
      have nowhere : tree.locate [] output.draft = .error .notFound := rfl
      rw [nowhere] at located
      contradiction
    · intro parent found _
      have beside : tree.locateParent [] output.draft = .ok ⟨[], ".a.log.csv".toList, false⟩ := rfl
      obtain rfl := Except.ok.inj (beside.symm.trans found)
      rfl
  -- what the theorem is applied to is known by its hypotheses; its text need not be unfolded
  clear_value tree log output
  have positive := Settings.step_pos_of_ofOptions accepted
  exact ⟨accepted, nothing, convertFile_all_or_nothing settings positive [] tree log output nothing⟩

end

end Cadence
