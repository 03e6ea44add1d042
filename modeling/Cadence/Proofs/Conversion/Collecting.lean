import Mathlib.Data.List.Nodup
import Cadence.Proofs.Conversion.Runs
import Cadence.Proofs.FileTree.Changes
import Cadence.Proofs.FileTree.Reach
import Cadence.Proofs.Path.Order

/-!
The logs that an input stands for. In a directory they are the files that are not hidden and have the extension, also
where links lead to them, in the order of their names; the order in which the directory is read does not matter. Each is
looked up through the input, though, and those that are out of reach of it are left out (`collectLogs_finds_iff`).
-/

namespace Cadence

namespace FileTree

/-! ## Names -/

theorem mem_entries_iff {tree : FileTree} {location : Location} (proper : location ≠ []) :
    location ∈ tree.entries.map Prod.fst ↔ tree.entryAt location ≠ none := by
  constructor
  · intro member free
    exact (not_mem_of_entryAt free).2 member
  · intro stands
    obtain ⟨entry, stands⟩ := Option.ne_none_iff_exists'.mp stands
    rw [entryAt, if_neg proper] at stands
    exact List.mem_map_of_mem (mem_of_find? stands)

/-- The names in the tree are such as files have: none is empty, and none holds a slash. -/
def HasFileNames (tree : FileTree) : Prop :=
  ∀ name directory, tree.entryAt (name :: directory) ≠ none → '/' ∉ name ∧ name ≠ []

theorem hasFileNames_iff {tree : FileTree} : tree.HasFileNames ↔
    ∀ place ∈ tree.entries.map Prod.fst, ∀ name ∈ place.head?, '/' ∉ name ∧ name ≠ [] := by
  constructor
  · rintro named (_ | ⟨name, directory⟩) member other first
    · cases first
    · obtain rfl := Option.some.inj first
      exact named name directory ((mem_entries_iff (List.cons_ne_nil _ _)).mp member)
  · intro named name directory stands
    exact named _ ((mem_entries_iff (List.cons_ne_nil _ _)).mpr stands) name rfl

instance (tree : FileTree) : Decidable tree.HasFileNames := decidable_of_iff _ hasFileNames_iff.symm

/-- The name of a location in this directory. -/
private def nameIn? (directory : Location) : Location → Option Text
  | [] => none
  | name :: parent => if parent = directory then some name else none

private theorem nameIn?_eq_some_iff {directory place : Location} {name : Text} :
    nameIn? directory place = some name ↔ place = name :: directory := by
  cases place with
  | nil => simp [nameIn?]
  | cons first parent =>
    rw [nameIn?]
    split <;> simp_all

private theorem namesIn_eq (tree : FileTree) (directory : Location) :
    tree.namesIn directory = (tree.entries.map Prod.fst).filterMap (nameIn? directory) := by
  rw [List.filterMap_map]
  rfl

theorem mem_namesIn {tree : FileTree} {directory : Location} {name : Text} :
    name ∈ tree.namesIn directory ↔ tree.entryAt (name :: directory) ≠ none := by
  rw [namesIn_eq, List.mem_filterMap, ← mem_entries_iff (List.cons_ne_nil _ _)]
  simp only [nameIn?_eq_some_iff, exists_eq_right]

theorem namesIn_nodup (tree : FileTree) (directory : Location) : (tree.namesIn directory).Nodup := by
  rw [namesIn_eq]
  refine tree.nodup.filterMap ?_
  intro first second name isFirst isSecond
  exact (nameIn?_eq_some_iff.mp isFirst).trans (nameIn?_eq_some_iff.mp isSecond).symm

theorem leadsToFile_iff {tree : FileTree} {here : Location} {path : Path} :
    tree.leadsToFile here path = true ↔ ∃ content, tree.contentOf here path = .ok content := by
  simp only [contentOf_eq_ok_iff]
  rw [leadsToFile]
  cases tree.locate here path with
  | error fault => simp
  | ok location => simp [isFileAt_iff]

/-! ## Directories read in any order -/

/-- The operations on a tree, with the names of a directory given in another order. -/
def accessOrdered (here : Location) (order : List Text → List Text) : FileAccess (StateM FileTree) Location :=
  { access here with list := fun path tree => (looked ((tree.list here path).map order), tree) }

theorem accessOrdered_id (here : Location) : accessOrdered here id = access here := by
  have same : ∀ (tree : FileTree) (path : Path), (tree.list here path).map id = tree.list here path := by
    intro tree path
    cases tree.list here path <;> rfl
  simp only [accessOrdered, same]
  rfl

end FileTree

open FileTree

variable {tree : FileTree} {here : Location} {input : Path} {extension : Text}

/-- The name of an entry of the directory that is not hidden and has the extension, and which leads to a file. -/
structure FileTree.IsLogName (tree : FileTree) (directory : Location) (extension name : Text) : Prop where
  inside : tree.entryAt (name :: directory) ≠ none
  shown : name.head? ≠ some '.'
  extended : extension <:+ name
  leads : ∃ content, tree.contentOf directory ⟨name⟩ = .ok content

theorem logNames_ordered (order : List Text → List Text) (directory : Path) (names : List Text) :
    logNames (accessOrdered here order) directory extension names =
      logNames (access here) directory extension names := by
  induction names with
  | nil => rfl
  | cons name rest ih =>
    rw [logNames, logNames, ih]
    rfl

/-- The names of the logs in a directory, as the tree is. -/
def FileTree.logNamesIn (tree : FileTree) (here : Location) (input : Path) (directory : Location) (extension : Text) :
    List Text :=
  sortBy id ((tree.namesIn directory).filter fun name =>
    hasLogName extension name && tree.leadsToFile here (input.join ⟨name⟩))

theorem FileTree.logNamesIn_increasing (directory : Location) :
    (tree.logNamesIn here input directory extension).Pairwise (Utf8.encode · < Utf8.encode ·) :=
  sortBy_increasing ((namesIn_nodup tree directory).filter _)

section
variable {directory : Location} {name : Text}

theorem FileTree.IsLogName.named (named : tree.HasFileNames) (log : tree.IsLogName directory extension name) :
    ('/' ∉ name ∧ name ≠ []) ∧ name ≠ ['.'] ∧ name ≠ ['.', '.'] := by
  refine ⟨named name directory log.inside, ?_, ?_⟩
  all_goals
    rintro rfl
    exact log.shown rfl

section
variable (located : tree.locate here input = .ok directory) (inside : tree.isDirectoryAt directory = true)
include located inside

theorem FileTree.mem_logNamesIn (named : tree.HasFileNames) :
    name ∈ tree.logNamesIn here input directory extension ↔
      tree.IsLogName directory extension name ∧ tree.InReach here input directory name := by
  rw [logNamesIn, (sortBy_perm id _).mem_iff]
  simp only [List.mem_filter, mem_namesIn, Bool.and_eq_true, hasLogName, leadsToFile_iff, decide_eq_true_eq,
    List.isSuffixOf_iff_suffix]
  constructor
  · rintro ⟨entry, ⟨shown, extended⟩, content, read⟩
    obtain ⟨plain, something⟩ := named name directory entry
    obtain ⟨leads, reach⟩ := (contentOf_join_iff located inside plain something).mp read
    exact ⟨⟨entry, shown, extended, content, leads⟩, reach⟩
  · rintro ⟨⟨entry, shown, extended, content, leads⟩, reach⟩
    obtain ⟨plain, something⟩ := named name directory entry
    exact ⟨entry, ⟨shown, extended⟩, content, (contentOf_join_iff located inside plain something).mpr ⟨leads, reach⟩⟩

theorem collectLogs_ordered {order : List Text → List Text} (perm : ∀ names, (order names).Perm names) :
    collectLogs (accessOrdered here order) input extension tree =
      (.ok ((tree.logNamesIn here input directory extension).map fun name => input.join ⟨name⟩), tree) := by
  have isDirectory : (accessOrdered here order).isDirectory input tree = (.ok true, tree) := by
    show (looked (tree.isDirectory here input), tree) = _
    rw [isDirectory, located]
    simp [Except.map, looked, inside]
  have list : (accessOrdered here order).list input tree = (.ok (order (tree.namesIn directory)), tree) := by
    show (looked ((tree.list here input).map order), tree) = _
    rw [FileTree.list, located]
    simp [Except.map, looked, inside]
  simp only [collectLogs, bind_run, isDirectory, list, logNames_ordered, logNames_run]
  rw [logNamesIn, sortBy_eq_of_perm ((namesIn_nodup tree directory).filter _) ((perm _).symm.filter _)]
  rfl

end

end

/-- In a directory the logs are the files, also those that links lead to, which are not hidden, have the extension and
are in reach of the input, in the order of the bytes of their names, which is that of their paths; it is the same list
whatever order the names are read in. It has every file that is not hidden and has the extension exactly if none of them
is out of reach: such a one is left out without an error. What is no directory is the only log, whatever it is
called. -/
theorem collectLogs_finds_iff (named : tree.HasFileNames) (here : Location) (input : Path) (extension : Text) :
    (∀ directory, tree.locate here input = .ok directory → tree.isDirectoryAt directory = true → ∃ logs : List Path,
      (logs.Pairwise fun first second => Utf8.encode first.lastName < Utf8.encode second.lastName) ∧
      logs.Pairwise Path.Before ∧
      (∀ path, path ∈ logs ↔ ∃ name, path = input.join ⟨name⟩ ∧ tree.IsLogName directory extension name ∧
        tree.InReach here input directory name) ∧
      ((∀ path, path ∈ logs ↔ ∃ name, path = input.join ⟨name⟩ ∧ tree.IsLogName directory extension name) ↔
        ∀ name, tree.IsLogName directory extension name → tree.InReach here input directory name) ∧
      ∀ order : List Text → List Text, (∀ names, (order names).Perm names) →
        collectLogs (accessOrdered here order) input extension tree = (.ok logs, tree)) ∧
    ∀ location, tree.locate here input = .ok location → tree.isDirectoryAt location = false →
      ∀ order, collectLogs (accessOrdered here order) input extension tree = (.ok [input], tree) := by
  constructor
  · intro directory located inside
    have some : input.text ≠ [] := text_ne_nil_of_valid (locate_eq_ok_iff.mp located).1
    have increasing : (tree.logNamesIn here input directory extension).Pairwise _ := logNamesIn_increasing directory
    have isLog : ∀ name, name ∈ tree.logNamesIn here input directory extension ↔ _ := fun name =>
      mem_logNamesIn located inside named
    have members : ∀ path, path ∈ (tree.logNamesIn here input directory extension).map (fun name => input.join ⟨name⟩) ↔
        ∃ name, path = input.join ⟨name⟩ ∧ tree.IsLogName directory extension name ∧
          tree.InReach here input directory name := by
      intro path
      simp only [List.mem_map, isLog, eq_comm (a := path), and_comm]
    refine ⟨_, ?_, ?_, members, ?_, fun order perm => collectLogs_ordered located inside perm⟩
    · rw [List.pairwise_map]
      refine increasing.imp_of_mem ?_
      intro first second firstMember secondMember less
      obtain ⟨⟨plain, something⟩, notHere, notUp⟩ := ((isLog first).mp firstMember).1.named named
      obtain ⟨⟨otherPlain, otherSomething⟩, otherNotHere, otherNotUp⟩ := ((isLog second).mp secondMember).1.named named
      rwa [Path.lastName, Path.lastName, Path.fileName?_join some plain something notHere notUp,
        Path.fileName?_join some otherPlain otherSomething otherNotHere otherNotUp]
    · rw [List.pairwise_map]
      refine increasing.imp_of_mem ?_
      intro first second firstMember secondMember less
      exact Path.before_join some (((isLog first).mp firstMember).1.named named)
        (((isLog second).mp secondMember).1.named named) less
    · simp only [members]
      constructor
      · intro all name log
        obtain ⟨other, same, otherLog, reach⟩ := (all (input.join ⟨name⟩)).mpr ⟨name, rfl, log⟩
        obtain rfl := Path.name_eq_of_join_eq (log.named named).1 (otherLog.named named).1 same
        exact reach
      · intro reach path
        exact exists_congr fun name => and_congr_right fun _ => and_iff_left_of_imp (reach name)
  · intro location located outside order
    have isDirectory : (accessOrdered here order).isDirectory input tree = (.ok false, tree) := by
      show (looked (tree.isDirectory here input), tree) = _
      rw [isDirectory, located]
      simp [Except.map, looked, outside]
    simp [collectLogs, isDirectory]

/-- A directory that is come to by a link, with files, a link to one of them and a link that leads nowhere, a link that
leads to itself, a hidden file and a directory, read from either end. -/
theorem collectLogs_finds_iff_through_link :
    let tree := (((((((((FileTree.empty.put ["d".toList] .directory).put ["b.log".toList, "d".toList] (.file [])).put
      ["a.log".toList, "d".toList] (.file [])).put [".h.log".toList, "d".toList] (.file [])).put
      ["notes.txt".toList, "d".toList] (.file [])).put ["old.log".toList, "d".toList] .directory).put
      ["l.log".toList, "d".toList] (.link ⟨"a.log".toList⟩)).put ["gone.log".toList, "d".toList]
      (.link ⟨"c.log".toList⟩)).put ["loop.log".toList, "d".toList] (.link ⟨"loop.log".toList⟩)).put
      ["k".toList] (.link ⟨"d".toList⟩)
    let input : Path := ⟨"k".toList⟩
    let logs : List Path := [⟨"k/a.log".toList⟩, ⟨"k/b.log".toList⟩, ⟨"k/l.log".toList⟩]
    tree.HasFileNames ∧ tree.locate [] input = .ok ["d".toList] ∧ tree.isDirectoryAt ["d".toList] = true ∧
      collectLogs (access []) input ".log".toList tree = (.ok logs, tree) ∧
      collectLogs (accessOrdered [] List.reverse) input ".log".toList tree = (.ok logs, tree) ∧
      (∀ path, path ∈ logs ↔ ∃ name, path = input.join ⟨name⟩ ∧
        tree.IsLogName ["d".toList] ".log".toList name ∧ tree.InReach [] input ["d".toList] name) := by
  intro tree input logs
  have named : tree.HasFileNames := by decide +kernel
  have located : tree.locate [] input = .ok ["d".toList] := by decide +kernel
  have inside : tree.isDirectoryAt ["d".toList] = true := by decide +kernel
  have found : (collectLogs (access []) input ".log".toList tree).1 = .ok logs := by decide +kernel
  clear_value tree input logs
  obtain ⟨all, _, _, members, _, collected⟩ := (collectLogs_finds_iff named [] input ".log".toList).1 _ located inside
  have whole := collected id fun _ => .refl _
  rw [accessOrdered_id] at whole
  rw [whole] at found
  obtain rfl := Except.ok.inj found
  exact ⟨named, located, inside, whole, collected List.reverse List.reverse_perm, members⟩

/-- A file that is neither hidden nor without the extension is left out where the path to its directory has 4089 bytes,
which leaves no room for its name. -/
theorem collectLogs_leaves_out :
    let tree := (FileTree.empty.put ["d".toList] .directory).put ["xx.log".toList, "d".toList] (.file [])
    let input : Path := ⟨(List.replicate 2044 "./".toList).flatten ++ "d".toList⟩
    tree.HasFileNames ∧ tree.locate [] input = .ok ["d".toList] ∧ tree.isDirectoryAt ["d".toList] = true ∧
      tree.IsLogName ["d".toList] ".log".toList "xx.log".toList ∧
      collectLogs (access []) input ".log".toList tree = (.ok [], tree) := by
  intro tree input
  have named : tree.HasFileNames := by decide +kernel
  have located : tree.locate [] input = .ok ["d".toList] := by decide +kernel
  have found : (collectLogs (access []) input ".log".toList tree).1 = .ok [] := by decide +kernel
  refine ⟨named, located, by decide +kernel, ⟨by decide +kernel, by decide, by decide, [], by decide +kernel⟩, ?_⟩
  rw [collectLogs_run] at found ⊢
  exact Prod.ext found rfl

end Cadence
