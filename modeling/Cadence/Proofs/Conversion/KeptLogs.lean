import Cadence.Proofs.Conversion.OneLog

/-!
The logs of a run, after it. A conversion acts on the place where its draft is made, on the entry of the draft and,
if all goes well, on the entry of the output (`Settings.touched`), and on nothing else. So what no conversion
of the run touches on the way of a path reads the same afterwards; and where one does touch it, the path reads as a
table afterwards, or not at all (`run_keeps_iff_spares`). An output is compared with its own log only, so that a run
may well replace another log, or empty it as its draft (`run_replaces_log`).
-/

namespace Cadence

open FileTree

/-- The bytes are the table of some rows. -/
def Csv.IsTable (bytes : Bytes) : Prop :=
  ∃ format rows, bytes = encoded format rows

/-- The bytes are what a conversion with these settings can write. -/
def Settings.Writes (settings : Settings) (table : Bytes) : Prop :=
  ∃ log target content, table = (settings.convertLines log target (linesRead content) .unlimited).2.taken

/-- The places that a conversion acts on: where the draft is made, the entry of the draft, and that of the output if
all goes well. -/
def Settings.touched (settings : Settings) (here : Location) (tree : FileTree) (log output : Path) : List Location :=
  match tree.locate here log with
  | .error _ => []
  | .ok _ => match tree.create here output.draft with
    | .error _ => (tree.ownPlace? here output.draft).toList
    | .ok (place, made) => place :: (made.ownPlace? here output.draft).toList ++
        match (convertFile (access here) settings log output tree).1 with
        | .error _ => []
        | .ok _ => (made.ownPlace? here output).toList

/-- The conversions that the loop begins, by their logs and the trees that they find. -/
def Job.conversions (job : Job) (here : Location) : List Path → FileTree → List (Path × FileTree)
  | [], _ => []
  | log :: rest, tree =>
    if tree.leadToSame here log (job.outputFor tree here log) then []
    else (log, tree) :: match convertFile (access here) job.settings log (job.outputFor tree here log) tree with
      | (.error _, _) => []
      | (.ok _, after) => conversions job here rest after

/-- The conversions that a run over these logs begins. -/
def Job.begun (job : Job) (here : Location) (logs : List Path) (tree : FileTree) : List (Path × FileTree) :=
  match job.refusesLogs tree here logs with
  | some _ => []
  | none => job.conversions here logs tree

/-- None of these conversions acts on a place where the path stops in the tree that the conversion finds. -/
def Job.Spares (job : Job) (here : Location) (path : Path) (conversions : List (Path × FileTree)) : Prop :=
  ∀ log tree, (log, tree) ∈ conversions → ∀ place ∈ tree.stops here path,
    place ∉ job.settings.touched here tree log (job.outputFor tree here log)

/-! ## How a conversion can go -/

section
variable {tree : FileTree} {here : Location}

theorem Settings.Writes.isTable {settings : Settings} (positive : 0 < settings.step.nanoseconds) {table : Bytes}
    (writes : settings.Writes table) : Csv.IsTable table := by
  obtain ⟨log, target, content, rfl⟩ := writes
  cases content with
  | error cause =>
    rw [convertLines_of_error]
    exact ⟨settings.format, [], rfl⟩
  | ok bytes =>
    obtain ⟨_, table, written, _, _, samples, selected, _, _, _, _, same, _⟩ :=
      means_of_step_pos positive log target bytes
    rw [written, same]
    exact ⟨settings.format, picked (rowsSinceFirst samples) selected, rfl⟩

/-- All that a conversion can do: nothing, as its log cannot be opened; only remove what has the name of the draft, as no
draft can be made; or write a table to the draft and then remove or rename it. -/
theorem convertFile_cases {settings : Settings} (positive : 0 < settings.step.nanoseconds) (log output : Path)
    {outcome : Except Failure Nat} {after : FileTree}
    (converted : convertFile (access here) settings log output tree = (outcome, after)) :
    ((∃ fault, tree.locate here log = .error fault) ∧ after = tree) ∨
    ((∃ source, tree.locate here log = .ok source) ∧
      (((∃ fault, tree.create here output.draft = .error fault) ∧ after = tree.removedAt here output.draft) ∨
        ∃ place made table, tree.create here output.draft = .ok (place, made) ∧ settings.Writes table ∧
          (((∃ failure, outcome = .error failure) ∧ after = (made.setContent place table).removedAt here output.draft) ∨
            ((∃ count, outcome = .ok count) ∧
              (made.setContent place table).rename here output.draft output = .ok after)))) := by
  rw [convertFile_run] at converted
  cases located : tree.locate here log with
  | error fault =>
    simp only [located] at converted
    cases converted
    exact .inl ⟨⟨fault, rfl⟩, rfl⟩
  | ok source =>
    right
    refine ⟨⟨source, rfl⟩, ?_⟩
    simp only [located, writeOutput_run] at converted
    cases created : tree.create here output.draft with
    | error fault =>
      simp only [created] at converted
      cases converted
      exact .inl ⟨⟨fault, rfl⟩, rfl⟩
    | ok made =>
      obtain ⟨place, made⟩ := made
      right
      simp only [created] at converted
      have table : settings.Writes (made.tableAt settings log output.draft source).2.taken := ⟨_, _, _, rfl⟩
      have noOverflow := Settings.outcome_ne_overflow positive log output.draft (made.readAt source)
      rw [tableAt] at table
      rw [readAt] at table noOverflow
      generalize settings.convertLines log output.draft (Settings.linesRead (looked (made.contentAt source))) .unlimited =
        result at converted table noOverflow
      obtain ⟨outcome', sink⟩ := result
      refine ⟨place, made, sink.taken, rfl, table, ?_⟩
      cases outcome' with
      | error failure =>
        left
        cases failure with
        | overflow => exact absurd rfl noOverflow
        | _ =>
          simp only at converted
          cases converted
          exact ⟨⟨_, rfl⟩, rfl⟩
      | ok count =>
        simp only at converted
        cases renamed : (made.setContent place sink.taken).rename here output.draft output with
        | error fault =>
          left
          simp only [renamed] at converted
          cases converted
          exact ⟨⟨_, rfl⟩, rfl⟩
        | ok final =>
          right
          simp only [renamed] at converted
          cases converted
          exact ⟨⟨_, rfl⟩, rfl⟩

/-! ## Where it acts -/

/-- A file that was made is a file with any content, so that paths name the same entries. -/
theorem FileTree.ownPlace?_setContent {draft path : Path} {place : Location} {made : FileTree}
    (created : tree.create here draft = .ok (place, made)) (content : Bytes) :
    (made.setContent place content).ownPlace? here path = made.ownPlace? here path := by
  obtain ⟨rfl, proper, _⟩ := create_eq_ok created
  ext own
  constructor
  · exact (keeps_of_put content proper).ownPlace?
  · exact (keeps_put content proper (by simp [proper]) (by simp [proper])).ownPlace?

theorem FileTree.frame_removedAt (tree : FileTree) (here : Location) (path : Path) :
    Frame (tree.ownPlace? here path).toList tree (tree.removedAt here path) := by
  unfold removedAt
  cases removed : tree.remove here path with
  | error fault => exact .refl _ tree
  | ok after =>
    obtain ⟨own, named, proper, noDirectory, rfl⟩ := remove_eq_ok removed
    rw [named]
    exact frame_erase proper noDirectory

theorem FileTree.entryAt_removedAt {path : Path} {own : Location} (named : tree.ownPlace? here path = some own) :
    (tree.removedAt here path).entryAt own = none ∨ (tree.removedAt here path).entryAt own = some .directory := by
  unfold removedAt
  cases removed : tree.remove here path with
  | error fault => exact remove_eq_error removed named
  | ok after =>
    obtain ⟨_, same, proper, _, rfl⟩ := remove_eq_ok removed
    cases Option.some.inj (same.symm.trans named)
    left
    exact entryAt_erase_self tree proper

theorem frame_setContent {draft : Path} {place : Location} {made : FileTree}
    (created : tree.create here draft = .ok (place, made)) (content : Bytes) :
    Frame [place] tree (made.setContent place content) := by
  obtain ⟨rfl, proper, noDirectory, _⟩ := create_eq_ok created
  rw [setContent, put_put]
  exact frame_put proper noDirectory (by simp)

/-- A conversion changes nothing but the places that it touches. -/
theorem convertFile_frame {settings : Settings} (positive : 0 < settings.step.nanoseconds) (log output : Path) :
    Frame (settings.touched here tree log output) tree (convertFile (access here) settings log output tree).2 := by
  obtain ⟨outcome, after, converted⟩ : ∃ outcome after,
      convertFile (access here) settings log output tree = (outcome, after) := ⟨_, _, rfl⟩
  rw [Settings.touched, converted]
  obtain ⟨_, rfl⟩ | ⟨⟨source, located⟩, ⟨⟨fault, created⟩, rfl⟩ | ⟨place, made, table, created, _, ending⟩⟩ :=
    convertFile_cases positive log output converted
  · exact .refl _ after
  · simp only [located, created]
    exact tree.frame_removedAt here output.draft
  · simp only [located, created]
    have written := frame_setContent created table
    obtain ⟨⟨failure, rfl⟩, rfl⟩ | ⟨⟨count, rfl⟩, renamed⟩ := ending
    · have removed := (made.setContent place table).frame_removedAt here output.draft
      rw [ownPlace?_setContent created] at removed
      simp only [List.append_nil]
      exact (written.mono (by simp)).trans (removed.mono (by simp))
    · obtain ⟨old, new, entry, draft, target, stands, other, noDirectory, rfl⟩ := rename_eq_ok renamed
      rw [ownPlace?_setContent created] at draft target
      simp only [draft, target, Option.toList_some, List.cons_append, List.nil_append]
      refine (written.mono (by simp)).trans ?_
      split
      · exact .refl _ _
      · refine (frame_move (ownPlace?_proper draft) (ownPlace?_proper target) ?_ noDirectory other).mono (by simp)
        rw [stands]
        simpa using other

/-! ## What is left there -/

/-- No link stands at the place, and no file but what a conversion can write. -/
def FileTree.HasNoLog (tree : FileTree) (settings : Settings) (place : Location) : Prop :=
  (∀ target, tree.entryAt place ≠ some (.link target)) ∧
    ∀ content, tree.entryAt place = some (.file content) → settings.Writes content

theorem FileTree.hasNoLog_removedAt {settings : Settings} {path : Path} {own : Location}
    (named : tree.ownPlace? here path = some own) : (tree.removedAt here path).HasNoLog settings own := by
  rcases entryAt_removedAt named with stands | stands
  · simp [HasNoLog, stands]
  · simp [HasNoLog, stands]

section
variable {settings : Settings} {path : Path} {content : Bytes} (read : tree.contentOf here path = .ok content)
  (plain : ¬ settings.Writes content)
include read plain

/-- A path that reads as what no conversion can write does not stop where no log can be. -/
theorem FileTree.HasNoLog.not_mem_stops {place : Location} (noLog : tree.HasNoLog settings place) :
    place ∉ tree.stops here path := by
  obtain ⟨location, located, stands⟩ := contentOf_eq_ok_iff.mp read
  rw [stops_of_locate located, List.mem_append, List.mem_singleton, not_or]
  constructor
  · intro member
    obtain ⟨target, linked⟩ := linksOn_links linkLimit _ place member
    exact noLog.1 target linked
  · rintro rfl
    exact plain (noLog.2 content stands)

/-- Nor does it stop at a link that was moved there from the draft, as this leads to the table. -/
theorem FileTree.not_mem_stops_of_moved {before : FileTree} {old new goal : Location} {target : Path} {spot : Spot}
    {slash asked : Bool} {links : Nat} {table : Bytes} (writes : settings.Writes table)
    (gone : tree.entryAt old = none) (linked : tree.entryAt new = some (.link target))
    (file : goal ≠ new → tree.entryAt goal = some (.file table))
    (others : ∀ other, other ≠ old → other ≠ new → other ≠ goal → tree.entryAt other = before.entryAt other)
    (led : walk before false links (.throughLink new.tail target [] asked) = .ok ⟨spot, slash⟩)
    (ends : spot.location = goal) : new ∉ tree.stops here path := by
  obtain ⟨location, located, stands⟩ := contentOf_eq_ok_iff.mp read
  rw [stops_of_locate located, List.mem_append, List.mem_singleton, not_or]
  have notNew : location ≠ new := by
    rintro rfl
    rw [linked] at stands
    cases stands
  refine ⟨?_, notNew.symm⟩
  intro member
  obtain ⟨slashAfter, _, arrived, _⟩ := follow_eq_ok_iff.mp (locate_eq_ok_iff.mp located).2
  obtain ⟨fewer, rest, asks, onwards⟩ := walk_through linked linkLimit member arrived
  have same : location = goal :=
    walk_of_moved gone linked (fun other => ⟨table, file other⟩) others ends led fewer rest asks onwards
  subst same
  rw [file notNew] at stands
  cases stands
  exact plain writes

end

section
variable {output path : Path} {place : Location} {made : FileTree} {table content : Bytes}
  (created : tree.create here output.draft = .ok (place, made))
include created

theorem FileTree.entryAt_setContent (content : Bytes) :
    (made.setContent place content).entryAt place = some (.file content) := by
  obtain ⟨_, proper, _⟩ := create_eq_ok created
  exact entryAt_put_self made proper _

theorem FileTree.entryAt_setContent_of_ne {location : Location} (elsewhere : location ≠ place) (content : Bytes) :
    (made.setContent place content).entryAt location = tree.entryAt location :=
  (frame_setContent created content).same location (by simpa using elsewhere)

theorem FileTree.ownPlace?_of_made {own : Location} (named : made.ownPlace? here path = some own) :
    tree.ownPlace? here path = some own := by
  obtain ⟨rfl, proper, _⟩ := create_eq_ok created
  exact (keeps_of_put [] proper).ownPlace? named

/-- A draft that is renamed leaves its entry for that of the output, beside it, and nothing else changes. -/
theorem renamedDraft_eq_ok {after : FileTree}
    (renamed : (made.setContent place table).rename here output.draft output = .ok after) :
    ∃ old new entry, made.ownPlace? here output.draft = some old ∧ made.ownPlace? here output = some new ∧
      old ≠ new ∧ old.tail = new.tail ∧
      (made.setContent place table).entryAt old = some entry ∧ entry ≠ .directory ∧
      ∀ location, after.entryAt location =
        if location = new then some entry
        else if location = old then none
        else (made.setContent place table).entryAt location := by
  obtain ⟨old, new, entry, draft, target, drafted, other, _, rfl⟩ := rename_eq_ok renamed
  rw [ownPlace?_setContent created] at draft target
  obtain ⟨different, siblings⟩ := draft_siblings draft target
  refine ⟨old, new, entry, draft, target, different, siblings, drafted, other, ?_⟩
  rw [if_neg different]
  exact entryAt_move (ownPlace?_proper draft) (ownPlace?_proper target)

/-- A link that has the name of the draft leads to the place where the draft was made. -/
theorem walk_of_drafted {own : Location} {target : Path} (draft : made.ownPlace? here output.draft = some own)
    (drafted : (made.setContent place table).entryAt own = some (.link target)) : own ≠ place ∧
      ∃ links spot slash, walk tree false links (.throughLink own.tail target [] false) = .ok ⟨spot, slash⟩ ∧
        spot.location = place := by
  have elsewhere : own ≠ place := by
    rintro rfl
    rw [entryAt_setContent created] at drafted
    cases drafted
  rw [entryAt_setContent_of_ne created elsewhere] at drafted
  obtain rfl | ⟨_, link, led⟩ := create_place created (ownPlace?_of_made created draft)
  · exact absurd rfl elsewhere
  · rw [drafted] at link
    cases link
    exact ⟨elsewhere, led⟩

variable {settings : Settings} (writes : settings.Writes table)
include writes

theorem writes_of_drafted {own : Location} {written : Bytes} (draft : made.ownPlace? here output.draft = some own)
    (drafted : (made.setContent place table).entryAt own = some (.file written)) : settings.Writes written := by
  by_cases same : own = place
  · subst same
    rw [entryAt_setContent created] at drafted
    cases drafted
    exact writes
  · rw [entryAt_setContent_of_ne created same] at drafted
    obtain rfl | ⟨_, link, _⟩ := create_place created (ownPlace?_of_made created draft)
    · exact absurd rfl same
    · rw [drafted] at link
      cases link

/-- After the draft is removed no log can be where it was made or had its name. -/
theorem hasNoLog_of_removed {own : Location}
    (touched : own = place ∨ made.ownPlace? here output.draft = some own) :
    ((made.setContent place table).removedAt here output.draft).HasNoLog settings own := by
  by_cases named : made.ownPlace? here output.draft = some own
  · rw [← ownPlace?_setContent created table] at named
    exact hasNoLog_removedAt named
  · obtain rfl := touched.resolve_right named
    have frame := (made.setContent own table).frame_removedAt here output.draft
    rw [ownPlace?_setContent created] at frame
    have same := frame.same own (by simpa using named)
    rw [entryAt_setContent created] at same
    simp [HasNoLog, same, writes]

/-- After the draft is renamed, a path that reads as what no conversion can write stops neither where the draft was made or
had its name nor at the output. -/
theorem not_mem_stops_of_renamed {after : FileTree} {own : Location}
    (renamed : (made.setContent place table).rename here output.draft output = .ok after)
    (read : after.contentOf here path = .ok content) (plain : ¬ settings.Writes content)
    (touched : own = place ∨ made.ownPlace? here output.draft = some own ∨ made.ownPlace? here output = some own) :
    own ∉ after.stops here path := by
  obtain ⟨old, new, entry, draft, target, different, siblings, drafted, other, moved⟩ :=
    renamedDraft_eq_ok created renamed
  have gone : after.entryAt old = none := by rw [moved, if_neg different, if_pos rfl]
  have renewed : after.entryAt new = some entry := by rw [moved, if_pos rfl]
  have atNew : new ∉ after.stops here path := by
    cases entry with
    | directory => exact absurd rfl other
    | file written =>
      have whole := writes_of_drafted created writes draft drafted
      exact HasNoLog.not_mem_stops read plain (by simp [HasNoLog, renewed, whole])
    | link path =>
      obtain ⟨elsewhere, links, spot, slash, led, ends⟩ := walk_of_drafted created draft drafted
      rw [siblings] at led
      refine not_mem_stops_of_moved read plain writes gone renewed ?_ ?_ led ends
      · intro notNew
        rw [moved, if_neg notNew, if_neg elsewhere.symm, entryAt_setContent created]
      · intro location notOld notNew notPlace
        rw [moved, if_neg notNew, if_neg notOld, entryAt_setContent_of_ne created notPlace]
  by_cases isNew : own = new
  · rw [isNew]
    exact atNew
  · refine HasNoLog.not_mem_stops read plain ?_
    by_cases isOld : own = old
    · simp [HasNoLog, isOld, gone]
    · obtain rfl | named | named := touched
      · simp [HasNoLog, moved, isNew, isOld, entryAt_setContent created, writes]
      · exact absurd (Option.some.inj (named.symm.trans draft)) isOld
      · exact absurd (Option.some.inj (named.symm.trans target)) isNew

end

/-- A path that reads after a conversion as what none can write does not stop where the conversion has acted. -/
theorem not_mem_stops_of_touched {settings : Settings} (positive : 0 < settings.step.nanoseconds) {log output path : Path}
    {content : Bytes} (read : (convertFile (access here) settings log output tree).2.contentOf here path = .ok content)
    (plain : ¬ settings.Writes content) : ∀ place ∈ settings.touched here tree log output,
      place ∉ (convertFile (access here) settings log output tree).2.stops here path := by
  obtain ⟨outcome, after, converted⟩ : ∃ outcome after,
      convertFile (access here) settings log output tree = (outcome, after) := ⟨_, _, rfl⟩
  rw [converted] at read ⊢
  rw [Settings.touched, converted]
  obtain ⟨⟨fault, located⟩, _⟩ | ⟨⟨source, located⟩,
      ⟨⟨fault, created⟩, rfl⟩ | ⟨place, made, table, created, writes, ending⟩⟩ :=
    convertFile_cases positive log output converted
  · simp [located]
  · simp only [located, created, Option.mem_toList]
    intro own named
    exact HasNoLog.not_mem_stops read plain (hasNoLog_removedAt named)
  · simp only [located, created]
    obtain ⟨⟨failure, rfl⟩, rfl⟩ | ⟨⟨count, rfl⟩, renamed⟩ := ending
    · simp only [List.append_nil, List.mem_cons, Option.mem_toList]
      intro own touched
      exact HasNoLog.not_mem_stops read plain (hasNoLog_of_removed created writes touched)
    · simp only [List.cons_append, List.mem_cons, List.mem_append, Option.mem_toList]
      intro own touched
      exact not_mem_stops_of_renamed created writes renamed read plain touched

/-- A path that reads after a conversion as what none can write was spared by it, and read the same before. -/
theorem spared_of_contentOf {settings : Settings} (positive : 0 < settings.step.nanoseconds) {log output path : Path}
    {content : Bytes} (read : (convertFile (access here) settings log output tree).2.contentOf here path = .ok content)
    (plain : ¬ settings.Writes content) : tree.contentOf here path = .ok content ∧
      ∀ place ∈ tree.stops here path, place ∉ settings.touched here tree log output := by
  have untouched := fun place member touched => not_mem_stops_of_touched positive read plain place touched member
  obtain ⟨readBefore, stops⟩ := (convertFile_frame positive log output).symm.contentOf untouched read
  rw [stops]
  exact ⟨readBefore, untouched⟩

end

/-! ## Runs -/

section
variable {job : Job} {here : Location} {path : Path} {content : Bytes}

theorem contentOf_of_spares (positive : 0 < job.settings.step.nanoseconds) (logs : List Path) :
    ∀ (tree : FileTree) (count : Nat), job.Spares here path (job.conversions here logs tree) →
      tree.contentOf here path = .ok content →
      (convertEach (access here) job count logs tree).2.contentOf here path = .ok content := by
  induction logs with
  | nil => intro tree count spares read; exact read
  | cons log rest ih =>
    intro tree count spares read
    rw [Job.conversions] at spares
    rw [convertEach_cons_run]
    by_cases same : tree.leadToSame here log (job.outputFor tree here log) = true
    · rw [if_pos same]
      exact read
    · rw [if_neg same] at spares ⊢
      have kept := ((convertFile_frame positive log (job.outputFor tree here log)).contentOf
        (spares log tree List.mem_cons_self) read).1
      have others : job.Spares here path _ := fun log tree member => spares log tree (List.mem_cons_of_mem _ member)
      generalize convertFile (access here) job.settings log (job.outputFor tree here log) tree = result at kept others ⊢
      obtain ⟨outcome, after⟩ := result
      cases outcome with
      | error failure => exact kept
      | ok rows => exact ih after (count + rows) others kept

/-- A path that reads after the loop as what no conversion can write was spared by it, and read the same before. -/
theorem spares_of_unwritten (positive : 0 < job.settings.step.nanoseconds) (plain : ¬ job.settings.Writes content)
    (logs : List Path) : ∀ (tree : FileTree) (count : Nat),
    (convertEach (access here) job count logs tree).2.contentOf here path = .ok content →
      tree.contentOf here path = .ok content ∧ job.Spares here path (job.conversions here logs tree) := by
  induction logs with
  | nil =>
    intro tree count read
    exact ⟨read, by simp [Job.Spares, Job.conversions]⟩
  | cons log rest ih =>
    intro tree count read
    rw [convertEach_cons_run] at read
    rw [Job.conversions]
    by_cases same : tree.leadToSame here log (job.outputFor tree here log) = true
    · rw [if_pos same] at read ⊢
      exact ⟨read, by simp [Job.Spares]⟩
    · rw [if_neg same] at read ⊢
      -- the conversions that come after this one spare the path, and it can still be read then
      have later : (convertFile (access here) job.settings log (job.outputFor tree here log) tree).2.contentOf here path =
          .ok content ∧ job.Spares here path
            (match convertFile (access here) job.settings log (job.outputFor tree here log) tree with
              | (.error _, _) => []
              | (.ok _, after) => job.conversions here rest after) := by
        generalize convertFile (access here) job.settings log (job.outputFor tree here log) tree = result at read ⊢
        obtain ⟨outcome, after⟩ := result
        cases outcome with
        | error failure => exact ⟨read, by simp [Job.Spares]⟩
        | ok rows => exact ih after (count + rows) read
      obtain ⟨readBefore, untouched⟩ := spared_of_contentOf positive later.1 plain
      refine ⟨readBefore, ?_⟩
      intro other now member
      rcases List.mem_cons.mp member with first | member
      · cases first
        exact untouched
      · exact later.2 other now member

/-- What reads as no table after the loop was spared by it, and read the same before. -/
theorem spares_of_contentOf (positive : 0 < job.settings.step.nanoseconds) (plain : ¬ Csv.IsTable content)
    (logs : List Path) (tree : FileTree) (count : Nat)
    (read : (convertEach (access here) job count logs tree).2.contentOf here path = .ok content) :
    tree.contentOf here path = .ok content ∧ job.Spares here path (job.conversions here logs tree) :=
  spares_of_unwritten positive (fun writes => plain (writes.isTable positive)) logs tree count read

/-- The tree that a call leaves behind: of the loop over given logs, or of a run that collects its logs itself. -/
def Job.Leaves (job : Job) (here : Location) (logs : List Path) (tree after : FileTree) : Prop :=
  after = (convertAll (access here) job logs tree).2 ∨
    ((collectLogs (access here) job.input job.settings.extension tree).1 = .ok logs ∧
      after = (runJob (access here) job tree).2)

theorem Job.Leaves.eq {logs : List Path} {tree after : FileTree} (leaves : job.Leaves here logs tree after) :
    after = (convertAll (access here) job logs tree).2 := by
  obtain rfl | ⟨collected, rfl⟩ := leaves
  · rfl
  · replace collected : tree.logsOf here job.input job.settings.extension = .ok logs := by
      rw [← collected, collectLogs_run]
    rw [runJob_run, collected]
    simp only
    generalize convertAll (access here) job logs tree = result
    obtain ⟨outcome, after⟩ := result
    cases outcome with
    | error failure => rfl
    | ok rows => rfl

/-- What can be read at a path before a run is read there after it if the conversions that the run begins spare the
path and, unless it is a table itself, only then. -/
theorem run_keeps_iff_spares (command input output options : Text) (job : Job)
    (accepted : Job.ofArguments command input output options = .ok job) (here : Location) (tree after : FileTree)
    (logs : List Path) (leaves : job.Leaves here logs tree after) (path : Path) (content : Bytes)
    (read : tree.contentOf here path = .ok content) :
    (job.Spares here path (job.begun here logs tree) → after.contentOf here path = .ok content) ∧
      (¬ Csv.IsTable content → after.contentOf here path = .ok content →
        job.Spares here path (job.begun here logs tree)) := by
  have positive := Job.step_pos_of_ofArguments accepted
  rw [leaves.eq, Job.begun, convertAll_run]
  cases job.refusesLogs tree here logs with
  | some fault => exact ⟨fun _ => read, fun _ _ => by simp [Job.Spares]⟩
  | none =>
    constructor
    · intro spares
      exact contentOf_of_spares positive logs tree 0 spares read
    · intro plain readAfter
      exact (spares_of_contentOf positive plain logs tree 0 readAfter).2

end

/-- A run over one log whose table goes beside it. -/
theorem run_keeps_iff_spares_of_one_log :
    let job : Job := ⟨[], ⟨"d".toList⟩, none, ⟨Pacer.defaultStep, .seconds, ".csv".toList, ".log".toList⟩⟩
    let content := Utf8.encode "2018-08-13 02:00:00 height=1 v\n".toList
    let tree := (FileTree.empty.put ["d".toList] .directory).put ["a.log".toList, "d".toList] (.file content)
    let log : Path := ⟨"d/a.log".toList⟩
    Job.ofArguments [] "d".toList [] [] = .ok job ∧ job.Spares [] log (job.begun [] [log] tree) ∧
      (runJob (access []) job tree).2.contentOf [] log = .ok content := by
  intro job content tree log
  have accepted : Job.ofArguments [] "d".toList [] [] = .ok job := rfl
  have leaves : job.Leaves [] [log] tree (runJob (access []) job tree).2 := .inr ⟨rfl, rfl⟩
  have read : tree.contentOf [] log = .ok content := rfl
  have alone : job.begun [] [log] tree = [(log, tree)] := by
    rw [Job.begun, show job.refusesLogs tree [] [log] = none from rfl]
    simp only
    rw [Job.conversions, if_neg (by decide)]
    rcases convertFile (access []) job.settings log (job.outputFor tree [] log) tree with ⟨outcome, after⟩
    cases outcome <;> rfl
  have stops : tree.stops [] log = [["a.log".toList, "d".toList]] := rfl
  have touched : job.settings.touched [] tree log (job.outputFor tree [] log) =
      [[".a.log.csv".toList, "d".toList], [".a.log.csv".toList, "d".toList], ["a.log.csv".toList, "d".toList]] := by
    decide +kernel
  have spares : job.Spares [] log (job.begun [] [log] tree) := by
    rw [alone]
    intro other now member
    cases List.mem_singleton.mp member
    rw [stops, touched]
    decide
  clear_value job content tree log
  exact ⟨accepted, spares,
    (run_keeps_iff_spares [] "d".toList [] [] job accepted [] tree _ [log] leaves log content read).1 spares⟩

/-- A run over two logs, the second of which has the name that the output of the first is given: it ends well and leaves
the table of the first where the second was. -/
theorem run_replaces_log :
    let job : Job := ⟨[], ⟨"d".toList⟩, none, ⟨Pacer.defaultStep, .seconds, ".log".toList, ".log".toList⟩⟩
    let first := Utf8.encode "2018-08-13 02:00:00 height=1 v\n".toList
    let second := Utf8.encode "2018-08-13 03:00:00 height=7 v\n".toList
    let tree := ((FileTree.empty.put ["d".toList] .directory).put ["a.log".toList, "d".toList] (.file first)).put
      ["a.log.log".toList, "d".toList] (.file second)
    let log : Path := ⟨"d/a.log.log".toList⟩
    let table := Utf8.encode "date,elapsed time,height\n2018-08-13 02:00:00,0,1\n".toList
    Job.ofArguments [] "d".toList [] "suffix=.log".toList = .ok job ∧
      (collectLogs (access []) job.input job.settings.extension tree).1 = .ok [⟨"d/a.log".toList⟩, log] ∧
      (runJob (access []) job tree).1 = .ok 2 ∧
      tree.contentOf [] log = .ok second ∧ (runJob (access []) job tree).2.contentOf [] log = .ok table ∧
      table ≠ second := by
  intro job first second tree log table
  exact ⟨rfl, rfl, by decide +kernel, rfl, by decide +kernel, by decide⟩

end Cadence
