import Mathlib.Data.Fintype.EquivFin
import Cadence.Proofs.Conversion.Collecting
import Cadence.Proofs.Conversion.OneLog
import Cadence.Proofs.FileTree.Acts

/-!
Drafts whose names are too long. The name of a draft is one byte longer than that of its output, so where a file could
be made under the name of the output there may be no room for the draft (`Path.HasRoomForDraft`). With that room a
conversion to such an output ends well and the table is read at the path of the output; without it the conversion fails
as it makes the draft, and changes nothing (`convertFile_writable`).
-/

namespace Cadence

open FileTree

/-- The draft of the output is a path of a length that is taken, with a last name of such a length. -/
def Path.HasRoomForDraft (output : Path) : Prop :=
  (Utf8.encode output.lastName).length < longestName ∧ (Utf8.encode output.draft.text).length < pathBytes

instance (output : Path) : Decidable output.HasRoomForDraft := inferInstanceAs (Decidable (_ ∧ _))

/-- Every line that carries a stamp and a height carries the stamp of a real time. -/
def HasRealTimes (bytes : Bytes) : Prop :=
  ∀ line ∈ Text.lines (Utf8.decode bytes), ∀ marked, Marked.Carries line marked → IsReal marked.stamp

theorem hasRealTimes_iff {bytes : Bytes} : HasRealTimes bytes ↔
    ∀ marking ∈ markings 0 (Text.lines (Utf8.decode bytes)), Timestamp.ofStamp? marking.2.stamp ≠ none := by
  constructor
  · rintro real ⟨number, marked⟩ member
    obtain ⟨i, line, inside, _, carries⟩ := (mem_markings_iff _ 0).mp member
    exact isReal_iff.mp (real line (List.mem_of_getElem? inside) marked carries)
  · intro real line isLine marked carries
    obtain ⟨i, inside⟩ := List.getElem?_of_mem isLine
    exact isReal_iff.mpr (real (i + 1, marked) ((mem_markings_iff _ 0).mpr ⟨i, line, inside, by omega, carries⟩))

instance (bytes : Bytes) : Decidable (HasRealTimes bytes) := decidable_of_iff _ hasRealTimes_iff.symm

theorem Settings.Means.outcome_of_real {settings : Settings} {bytes written : Bytes} {outcome : Except Failure Nat}
    (means : settings.Means bytes outcome written) (real : HasRealTimes bytes) : ∃ count, outcome = .ok count := by
  obtain ⟨all, read, _, _, marks, _, _, _, _, _, ⟨_, counted⟩ | ⟨number, marked, rest, whole, unreal, _⟩⟩ := means
  · exact ⟨_, counted⟩
  · obtain ⟨i, line, inside, _, carries⟩ := (marks.2 number marked).mp (by simp [whole])
    exact absurd (real line (List.mem_of_getElem? inside) marked carries) unreal

namespace FileTree

variable {tree after : FileTree} {here directory place : Location} {output : Path} {name : Text} {slash : Bool}

/-! ## The place of the draft -/

section
variable (found : tree.locateParent here output = .ok ⟨directory, name, slash⟩)
include found

theorem lastName_of_locateParent : output.lastName = name := by
  obtain ⟨_, names, whole, ⟨notHere, notUp, _⟩, _⟩ := locateParent_eq_ok_iff.mp found
  rw [Path.lastName, Path.fileName?_of_last (by rw [whole, List.getLast?_concat]) notHere notUp, Option.getD_some]

theorem pathFault?_draft : pathFault? output.draft =
    if pathBytes ≤ (Utf8.encode output.draft.text).length then some .nameTooLong else none := by
  obtain ⟨valid, _, whole, ⟨notHere, notUp, _⟩, _⟩ := locateParent_eq_ok_iff.mp found
  have last : output.route.names.getLast? = some name := by rw [whole, List.getLast?_concat]
  have noNul : '\x00' ∉ output.draft.text := by
    intro nul
    rcases Path.mem_of_mem_draft last notHere notUp nul with inside | slash | dot
    · simp [pathFault?, inside] at valid
    · exact absurd slash (by decide)
    · exact absurd dot (by decide)
  have something : output.draft.text ≠ [] := by
    intro nothing
    have named := Path.last_name_of_draft last notHere notUp
    simp [Path.route, nothing] at named
  rw [pathFault?, if_neg noNul, if_neg something]

theorem isEntryName_draft_iff : IsEntryName ('.' :: name) ↔ (Utf8.encode name).length < longestName := by
  obtain ⟨notHere, notUp, _⟩ := draft_goes_beside found
  have longer : (Utf8.encode ('.' :: name)).length = (Utf8.encode name).length + 1 := by
    rw [Utf8.encode_cons, List.length_append, show (String.utf8EncodeChar '.').length = 1 by decide, Nat.add_comm]
  rw [IsEntryName, longer, Nat.succ_le_iff]
  exact ⟨fun named => named.2.2, fun short => ⟨notHere, notUp, short⟩⟩

theorem locateParent_draft (room : output.HasRoomForDraft) :
    tree.locateParent here output.draft = .ok ⟨directory, '.' :: name, false⟩ := by
  obtain ⟨shortName, shortPath⟩ := room
  rw [lastName_of_locateParent found] at shortName
  obtain ⟨_, _, noSlash, names, whole, followed⟩ := draft_goes_beside found
  refine locateParent_eq_ok_iff.mpr ⟨?_, names, whole, (isEntryName_draft_iff found).mpr shortName, noSlash.symm, followed⟩
  rw [pathFault?_draft found, if_neg (Nat.not_le.mpr shortPath)]

theorem create_draft_of_no_room (noRoom : ¬ output.HasRoomForDraft) :
    tree.create here output.draft = .error .nameTooLong := by
  by_cases longPath : pathBytes ≤ (Utf8.encode output.draft.text).length
  · rw [create, pathFault?_draft found, if_pos longPath]
  · have longName : ¬ (Utf8.encode name).length < longestName := by
      intro shortName
      exact noRoom ⟨by rwa [lastName_of_locateParent found], Nat.lt_of_not_le longPath⟩
    obtain ⟨notHere, notUp, noSlash, names, whole, followed⟩ := draft_goes_beside found
    have trail : Trail.ofPath here output.draft =
        ⟨(Trail.ofPath here output.draft).directory, names ++ ['.' :: name], false⟩ := by
      rw [← whole, ← noSlash]
      rfl
    obtain ⟨arrived, inside⟩ := follow_directory_iff.mp followed
    have stops : walk tree true linkLimit (.ofPath here output.draft) = .error .nameTooLong := by
      rw [trail]
      have tooLong : ¬ IsEntryName ('.' :: name) := fun named => longName ((isEntryName_draft_iff found).mp named)
      have long : longestName < (Utf8.encode ('.' :: name)).length := by
        by_contra short
        exact tooLong ⟨notHere, notUp, Nat.le_of_not_lt short⟩
      rw [walk_concat arrived inside, walk_eq, walkNames_cons, nameStep, if_neg (by simp [inside]), if_neg notHere,
        if_neg notUp, if_neg (by simp), if_pos long]
    rw [create, pathFault?_draft found, if_neg longPath, stops]

end

/-! ## The place of the output -/

/-- Trees are finite, so there is always a place where nothing stands. -/
theorem exists_free (tree : FileTree) (place : Location) : ∃ free, free ≠ place ∧ tree.entryAt free = none := by
  obtain ⟨free, fresh⟩ := Infinite.exists_notMem_finset (([] :: place :: tree.entries.map Prod.fst).toFinset)
  simp only [List.mem_toFinset, List.mem_cons, not_or] at fresh
  obtain ⟨proper, other, unlisted⟩ := fresh
  refine ⟨free, other, ?_⟩
  rw [entryAt, if_neg proper, Option.eq_none_iff_forall_ne_some]
  intro entry stands
  exact unlisted (List.mem_map_of_mem (mem_of_find? stands))

section
variable (nested : tree.Nested) (created : tree.create here output = .ok (place, after))
  (found : tree.locateParent here output = .ok ⟨directory, name, false⟩)
include nested created found

theorem noLinkAt_of_create : tree.NoLinkAt place := by
  obtain ⟨_, _, _, spot, slash, arrived, rfl⟩ := create_eq_ok created
  obtain ⟨inside, links, further⟩ := walk_of_locateParent found
  rw [further true] at arrived
  cases spot with
  | entry location => exact walk_noLinkAt nested links ⟨directory, [name], false⟩ inside arrived
  | free location =>
    have free : tree.entryAt location = none := (walk_free links arrived).2
    intro target linked
    exact absurd (free.symm.trans linked) (by simp)

theorem keeps_of_create : Keeps tree after := by
  obtain ⟨rfl, proper, noDirectory, _⟩ := create_eq_ok created
  exact keeps_put [] proper noDirectory (noLinkAt_of_create nested created found)

omit nested in
theorem entryAt_of_create : tree.entryAt (name :: directory) ≠ some .directory := by
  obtain ⟨_, _, noDirectory, _⟩ := create_eq_ok created
  obtain rfl | ⟨target, linked, _⟩ := create_place created (ownPlace?_eq_some_iff.mpr ⟨directory, name, found, rfl⟩)
  · exact noDirectory
  · rw [linked]
    simp

/-- With the file made, ways through a link at the output lead to that file or nowhere. -/
theorem walk_through_of_create {target : Path} (linked : tree.entryAt (name :: directory) = some (.link target))
    {links : Nat} {rest : List Text} {asks : Bool} {goal : Location}
    (through : walk after false links (.throughLink directory target rest asks) = .ok ⟨.entry goal, slash⟩) :
    goal = place := by
  obtain ⟨rfl, proper, _⟩ := create_eq_ok created
  have noLink := noLinkAt_of_create nested created found
  obtain rfl | ⟨other, linkedOther, more, spot, asked, led, ends⟩ :=
    create_place created (ownPlace?_eq_some_iff.mpr ⟨directory, name, found, rfl⟩)
  · exact absurd linked (noLink target)
  · cases linked.symm.trans linkedOther
    have notLink : name :: directory ≠ place := by
      rintro rfl
      exact noLink target linked
    -- as if the link had come from a place where nothing stands
    obtain ⟨free, apart, gone⟩ := exists_free tree place
    have goneAfter : (tree.put place (.file [])).entryAt free = none := by
      rw [entryAt_put_of_ne tree proper _ apart, gone]
    have linkedAfter : (tree.put place (.file [])).entryAt (name :: directory) = some (.link target) := by
      rw [entryAt_put_of_ne tree proper _ notLink, linked]
    have isFile : (tree.put place (.file [])).entryAt place = some (.file []) := entryAt_put_self tree proper _
    have others : ∀ elsewhere, elsewhere ≠ free → elsewhere ≠ name :: directory → elsewhere ≠ place →
        (tree.put place (.file [])).entryAt elsewhere = tree.entryAt elsewhere := by
      intro elsewhere _ _ notPlace
      exact entryAt_put_of_ne tree proper _ notPlace
    exact walk_of_moved goneAfter linkedAfter (fun _ => ⟨[], isFile⟩) others ends led links rest asks through

/-- The way to the directory of the output does not lead over the output, even if that is a link. -/
theorem not_mem_linksOn_of_create {trail : Trail} (arrived : walk tree false linkLimit trail = .ok ⟨.entry directory, slash⟩) :
    name :: directory ∉ linksOn tree linkLimit trail := by
  intro member
  have inside := (walk_of_locateParent found).1
  have keeps := keeps_of_create nested created found
  obtain ⟨target, linked⟩ := linksOn_links linkLimit trail _ member
  obtain ⟨links, rest, asks, through⟩ := walk_through linked linkLimit member arrived
  have arrives := walk_through_of_create nested created found linked (keeps.walk (keeps.entryAt_directory inside) through)
  obtain ⟨_, _, noDirectory, _⟩ := create_eq_ok created
  rw [arrives] at inside
  exact noDirectory (isDirectoryAt_iff.mp inside)

theorem contentOf_put_of_create (content : Bytes) :
    (tree.put (name :: directory) (.file content)).contentOf here output = .ok content := by
  have proper : name :: directory ≠ [] := List.cons_ne_nil _ _
  obtain ⟨valid, names, whole, named, slash, followed⟩ := locateParent_eq_ok_iff.mp found
  obtain ⟨arrived, inside⟩ := follow_directory_iff.mp followed
  have elsewhere := not_mem_linksOn_of_create nested created found arrived
  have noDirectory := entryAt_of_create created found
  have stays : (tree.put (name :: directory) (.file content)).isDirectoryAt directory = true :=
    isDirectoryAt_put content proper noDirectory inside
  have same : (tree.put (name :: directory) (.file content)).entryAt directory = tree.entryAt directory := by
    rw [isDirectoryAt_iff.mp stays, isDirectoryAt_iff.mp inside]
  have kept : ∀ link ∈ linksOn tree linkLimit ⟨(Trail.ofPath here output).directory, names, true⟩,
      (tree.put (name :: directory) (.file content)).entryAt link = tree.entryAt link := by
    intro link isLink
    refine entryAt_put_of_ne tree proper _ ?_
    rintro rfl
    exact elsewhere isLink
  have arrivedAfter :=
    (walk_of_kept (fun place => isDirectoryAt_put content proper noDirectory) same linkLimit _ kept arrived).1
  have foundAfter : (tree.put (name :: directory) (.file content)).locateParent here output = .ok ⟨directory, name, false⟩ :=
    locateParent_eq_ok_iff.mpr
      ⟨valid, names, whole, named, slash, follow_directory_iff.mpr ⟨arrivedAfter, stays⟩⟩
  have stands : (tree.put (name :: directory) (.file content)).entryAt (name :: directory) = some (.file content) :=
    entryAt_put_self tree proper _
  refine contentOf_eq_ok_iff.mpr ⟨name :: directory, locate_eq_ok_iff.mpr ⟨valid, ?_⟩, ?_⟩
  · rw [follow_of_locateParent foundAfter (by simp [stands])]
    simp [stands]
  · rw [stands]

end

end FileTree

/-! ## Conversions -/

/-- Where a file can be made or replaced at the path of the output, every time in the log is real and nothing stands at
the draft, all depends on the room for the draft: with it the conversion ends well and the table is read at the path of
the output, without it the draft cannot be made and nothing has changed. -/
theorem convertFile_writable (settings : Settings) (positive : 0 < settings.step.nanoseconds) (here : Location)
    (tree : FileTree) (nested : tree.Nested) (log output : Path) (bytes : Bytes)
    (readable : tree.contentOf here log = .ok bytes) (real : HasRealTimes bytes)
    (writable : ∃ made, tree.create here output = .ok made) (nothing : tree.NothingAt here output.draft) :
    (output.HasRoomForDraft → ∃ count table after,
      convertFile (access here) settings log output tree = (.ok count, after) ∧
        after.contentOf here output = .ok table ∧ settings.Means bytes (.ok count) table) ∧
    (¬ output.HasRoomForDraft → convertFile (access here) settings log output tree =
      (.error (.io output.draft FileFault.nameTooLong.error), tree)) := by
  obtain ⟨source, located, reads⟩ := contentOf_eq_ok_iff.mp readable
  obtain ⟨⟨place, made⟩, created⟩ := writable
  obtain ⟨own, named⟩ := exists_ownPlace?_of_create nested created
  obtain ⟨directory, name, found, rfl⟩ := ownPlace?_eq_some_iff.mp named
  constructor
  · intro room
    have draft := locateParent_draft found room
    have free := nothing.2 _ draft rfl
    have outside : tree.isDirectoryAt (name :: directory) = false := by
      rw [Bool.eq_false_iff, ne_eq, isDirectoryAt_iff]
      exact entryAt_of_create created found
    obtain ⟨outcome, table, converted, means⟩ := Settings.means_of_step_pos positive log output.draft bytes
    obtain ⟨count, rfl⟩ := means.outcome_of_real real
    have comes : tree.outcomeAt settings log output source ⟨directory, name, false⟩ = .ok (count, table) := by
      rw [outcomeAt, tableAt, readAt, contentAt, reads, looked, converted]
      simp [outside]
    refine ⟨count, table, tree.put (name :: directory) (.file table), ?_, ?_, means⟩
    · rw [convertFile_of_places positive draft free located found, comes]
    · exact contentOf_put_of_create nested created found table
  · intro noRoom
    obtain ⟨stays, nothingRemoved⟩ := remove_of_nothing nothing
    simp [located, create_draft_of_no_room found noRoom, removedAt, nothingRemoved]

/-- The conversion of a log of one line whose table goes beside it. -/
theorem convertFile_writable_of_short_name :
    let settings : Settings := ⟨Pacer.defaultStep, .seconds, ".csv".toList, ".log".toList⟩
    let bytes := Utf8.encode "2018-08-13 02:00:00 height=1 v\n".toList
    let tree := FileTree.empty.put ["a.log".toList] (.file bytes)
    let log : Path := ⟨"a.log".toList⟩
    let output : Path := ⟨"a.log.csv".toList⟩
    Settings.ofOptions [] = .ok settings ∧ tree.Nested ∧ tree.contentOf [] log = .ok bytes ∧ HasRealTimes bytes ∧
      (∃ made, tree.create [] output = .ok made) ∧ tree.NothingAt [] output.draft ∧ output.HasRoomForDraft ∧
      ∃ count table after, convertFile (access []) settings log output tree = (.ok count, after) ∧
        after.contentOf [] output = .ok table ∧ settings.Means bytes (.ok count) table := by
  intro settings bytes tree log output
  have accepted : Settings.ofOptions [] = .ok settings := rfl
  have nested : tree.Nested := by decide +kernel
  have readable : tree.contentOf [] log = .ok bytes := rfl
  have real : HasRealTimes bytes := by decide +kernel
  have writable : ∃ made, tree.create [] output = .ok made := ⟨_, rfl⟩
  have nothing : tree.NothingAt [] output.draft := by
    have nowhere : tree.locate [] output.draft = .error .notFound := rfl
    have beside : tree.locateParent [] output.draft = .ok ⟨[], ".a.log.csv".toList, false⟩ := rfl
    refine ⟨by simp [nowhere], fun parent found _ => ?_⟩
    obtain rfl := Except.ok.inj (beside.symm.trans found)
    rfl
  have room : output.HasRoomForDraft := by decide +kernel
  clear_value output log tree bytes
  have positive := Settings.step_pos_of_ofOptions accepted
  exact ⟨accepted, nested, readable, real, writable, nothing, room,
    (convertFile_writable settings positive [] tree nested log output bytes readable real writable nothing).1 room⟩

/-- A name of 255 bytes is no name for a draft: a file could be made at the output, but the conversion fails. -/
theorem convertFile_fails_at_longest_name :
    let settings : Settings := ⟨Pacer.defaultStep, .seconds, ".csv".toList, ".log".toList⟩
    let bytes := Utf8.encode "2018-08-13 02:00:00 height=1 v\n".toList
    let tree := FileTree.empty.put ["a.log".toList] (.file bytes)
    let log : Path := ⟨"a.log".toList⟩
    let output : Path := ⟨List.replicate 255 'o'⟩
    Settings.ofOptions [] = .ok settings ∧ tree.Nested ∧ tree.contentOf [] log = .ok bytes ∧ HasRealTimes bytes ∧
      tree.create [] output = .ok ([output.text], tree.put [output.text] (.file [])) ∧
      tree.locateParent [] output = .ok ⟨[], output.text, false⟩ ∧ tree.entryAt [output.text] = none ∧
      tree.NothingAt [] output.draft ∧
      (convertFile (access []) settings log output tree).1 = .error (.io output.draft FileFault.nameTooLong.error) := by
  intro settings bytes tree log output
  have found : tree.locateParent [] output = .ok ⟨[], output.text, false⟩ := by decide +kernel
  have free : tree.entryAt [output.text] = none := by decide +kernel
  have nowhere : tree.locate [] output.draft = .error .nameTooLong := by decide +kernel
  have unnamed : tree.locateParent [] output.draft = .error .nameTooLong := by decide +kernel
  exact ⟨rfl, by decide +kernel, rfl, by decide +kernel, create_of_locateParent found free, found, free,
    ⟨by simp [nowhere], by simp [unnamed]⟩, by decide +kernel⟩

end Cadence
