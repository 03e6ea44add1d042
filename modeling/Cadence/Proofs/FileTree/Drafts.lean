import Cadence.Proofs.FileTree.Changes
import Cadence.Proofs.FileTree.Acts
import Cadence.Proofs.Path.Names

/-!
Drafts in a tree. A draft and its output name different entries of one directory, however the path of the output is
written (`draft_siblings`). Where a file can be made its path names an entry (`exists_ownPlace?_of_create`).
-/

namespace Cadence.FileTree

variable {tree : FileTree} {here : Location} {output : Path}

theorem draft_name_ne {before : FileTree} {old new : Parent}
    (draft : before.locateParent here output.draft = .ok old) (target : tree.locateParent here output = .ok new) :
    old.name ≠ new.name := by
  obtain ⟨_, draftNames, draftWhole, _⟩ := locateParent_eq_ok_iff.mp draft
  obtain ⟨_, names, whole, ⟨notHere, notUp, _⟩, _⟩ := locateParent_eq_ok_iff.mp target
  have last := Path.last_name_of_draft (by rw [whole, List.getLast?_concat]) notHere notUp
  rw [draftWhole, List.getLast?_concat] at last
  rw [Option.some.inj last]
  intro same
  have lengths := congrArg List.length same
  simp at lengths

private theorem follow_here_iff {start location : Location} {names : List Text} :
    tree.follow ⟨start, names ++ [['.']], true⟩ = .ok location ↔ tree.follow ⟨start, names, true⟩ = .ok location := by
  rw [follow_directory_iff, follow_directory_iff]
  refine and_congr_left fun inside => ?_
  rcases walk_snoc tree linkLimit start names with ⟨place, led, open', further⟩ | ⟨lost, astray⟩
  · have led : walk tree false linkLimit ⟨start, names, true⟩ = .ok ⟨.entry place, true⟩ := led
    have stays : walk tree false linkLimit ⟨start, names ++ [['.']], true⟩ = .ok ⟨.entry place, true⟩ := by
      refine (further false true ['.']).trans ?_
      rw [walk_eq, walkNames_cons, nameStep, if_neg (by simp [open']), if_pos rfl]
      rfl
    rw [stays, led]
  · obtain ⟨fault, failed⟩ := astray false true ['.']
    constructor
    · intro arrived
      cases failed.symm.trans arrived
    · intro arrived
      rw [(lost location true arrived).2] at inside
      contradiction

/-- Pieces `.` stay in the directory that the names before them lead to. -/
theorem follow_idle_iff {start location : Location} {names : List Text} (idle : List Text)
    (quiet : ∀ piece ∈ idle, piece = ['.']) :
    tree.follow ⟨start, names ++ idle, true⟩ = .ok location ↔ tree.follow ⟨start, names, true⟩ = .ok location := by
  induction idle generalizing names with
  | nil => rw [List.append_nil]
  | cons piece rest ih =>
    obtain ⟨rfl, others⟩ := List.forall_mem_cons.mp quiet
    rw [← List.singleton_append, ← List.append_assoc, ih others, follow_here_iff]

/-- The last name of a draft is none of those that stand for a step, and no slash follows it; the names before it lead to
the directory of the output. -/
theorem draft_goes_beside {directory : Location} {name : Text} {slash : Bool}
    (found : tree.locateParent here output = .ok ⟨directory, name, slash⟩) :
    '.' :: name ≠ ['.'] ∧ '.' :: name ≠ ['.', '.'] ∧ output.draft.route.slashAfter = false ∧
      ∃ names, output.draft.route.names = names ++ ['.' :: name] ∧
        tree.follow ⟨(Trail.ofPath here output.draft).directory, names, true⟩ = .ok directory := by
  obtain ⟨_, outputNames, whole, ⟨notHere, notUp, _⟩, _, followed⟩ := locateParent_eq_ok_iff.mp found
  have last : output.route.names.getLast? = some name := by rw [whole, List.getLast?_concat]
  have something : name ≠ [] := (Path.plain_of_mem_names (List.mem_of_getLast? last)).2
  obtain ⟨absolute, front, idle, others, route, draftRoute, quiet⟩ := Path.route_draft last notHere notUp
  rw [whole] at route
  obtain ⟨rfl, _⟩ := List.append_inj' route rfl
  have start : (Trail.ofPath here output.draft).directory = (Trail.ofPath here output).directory := by
    rw [Trail.ofPath, Trail.ofPath, absolute]
  have followedFront := (follow_idle_iff idle fun piece member => quiet piece (List.mem_append_left _ member)).mp followed
  refine ⟨by simpa using something, by simpa using notHere, Path.slashAfter_of_draft last notHere notUp,
    front ++ others, draftRoute, ?_⟩
  rw [start, follow_idle_iff others fun piece member => quiet piece (List.mem_append_right _ member)]
  exact followedFront

/-- The entries of a draft and of its output are different ones of the same directory. -/
theorem draft_siblings {old new : Location} (draft : tree.ownPlace? here output.draft = some old)
    (target : tree.ownPlace? here output = some new) : old ≠ new ∧ old.tail = new.tail := by
  obtain ⟨draftDirectory, draftName, draftFound, rfl⟩ := ownPlace?_eq_some_iff.mp draft
  obtain ⟨directory, name, found, rfl⟩ := ownPlace?_eq_some_iff.mp target
  refine ⟨fun same => draft_name_ne draftFound found (List.cons.inj same).1, ?_⟩
  obtain ⟨_, draftNames, draftWhole, _, _, draftFollowed⟩ := locateParent_eq_ok_iff.mp draftFound
  obtain ⟨_, _, _, names, whole, followed⟩ := draft_goes_beside found
  rw [draftWhole] at whole
  obtain ⟨rfl, _⟩ := List.append_inj' whole rfl
  exact Except.ok.inj (draftFollowed.symm.trans followed)

/-! ## Nested directories -/

/-- Every directory stands in a directory. -/
def Nested (tree : FileTree) : Prop :=
  ∀ place, tree.isDirectoryAt place = true → tree.isDirectoryAt place.tail = true

theorem nested_iff : tree.Nested ↔
    ∀ entry ∈ tree.entries, tree.isDirectoryAt entry.1 = true → tree.isDirectoryAt entry.1.tail = true := by
  constructor
  · exact fun nested entry _ => nested entry.1
  · intro nested place inside
    by_cases root : place = []
    · subst root
      exact inside
    · have stands := isDirectoryAt_iff.mp inside
      rw [entryAt, if_neg root] at stands
      exact nested _ (mem_of_find? stands) inside

instance (tree : FileTree) : Decidable tree.Nested := decidable_of_iff _ nested_iff.symm

/-- In a directory, a step that goes on leads to a directory or to the entry of the name. -/
theorem isDirectoryAt_of_go {making slashAfter last : Bool} {directory place : Location} {name : Text}
    (nested : tree.Nested) (step : nameStep tree making slashAfter directory name last = .go place) :
    tree.isDirectoryAt place = true ∨ (IsEntryName name ∧ (making && last && slashAfter) = false) := by
  obtain ⟨inside, ⟨_, rfl⟩ | ⟨_, rfl⟩ | ⟨named, noSlash, _⟩⟩ := nameStep_eq_go step
  · exact .inl inside
  · exact .inl (nested _ inside)
  · exact .inr ⟨named, noSlash⟩

/-! ## Ways end at no link -/

/-- No link stands at the location. -/
def NoLinkAt (tree : FileTree) (location : Location) : Prop :=
  ∀ target, tree.entryAt location ≠ some (.link target)

theorem noLinkAt_of_directory {location : Location} (inside : tree.isDirectoryAt location = true) :
    tree.NoLinkAt location := by
  intro target linked
  rw [isDirectoryAt_iff.mp inside] at linked
  cases linked

private theorem walkNames_noLinkAt (nested : tree.Nested) {making slashAfter slash : Bool}
    {follow : Trail → Except FileFault Arrival} {location : Location}
    (further : ∀ trail, tree.isDirectoryAt trail.directory = true → follow trail = .ok ⟨.entry location, slash⟩ →
      tree.NoLinkAt location) (names : List Text) : ∀ directory, tree.NoLinkAt directory →
      walkNames tree making follow slashAfter directory names = .ok ⟨.entry location, slash⟩ →
        tree.NoLinkAt location := by
  induction names with
  | nil =>
    intro directory plain arrived
    cases arrived
    exact plain
  | cons name rest ih =>
    intro directory plain arrived
    rw [walkNames_cons] at arrived
    split at arrived
    · contradiction
    · cases arrived
    · rename_i target step
      refine further _ ?_ arrived
      rw [Trail.throughLink]
      split
      · exact isDirectoryAt_iff.mpr rfl
      · exact (nameStep_eq_link step).1
    · rename_i place step
      refine ih place ?_ arrived
      obtain ⟨inside, ⟨_, rfl⟩ | ⟨_, rfl⟩ | ⟨_, _, _, entry, stands, noLink⟩⟩ := nameStep_eq_go step
      · exact plain
      · exact noLinkAt_of_directory (nested directory inside)
      · intro target linked
        rw [stands] at linked
        exact noLink target (Option.some.inj linked)

theorem walk_noLinkAt (nested : tree.Nested) {making slash : Bool} {location : Location}
    (links : Nat) : ∀ trail : Trail, tree.isDirectoryAt trail.directory = true →
      walk tree making links trail = .ok ⟨.entry location, slash⟩ → tree.NoLinkAt location := by
  induction links with
  | zero =>
    intro trail inside arrived
    exact walkNames_noLinkAt nested (by simp) _ _ (noLinkAt_of_directory inside) arrived
  | succ links ih =>
    intro trail inside arrived
    exact walkNames_noLinkAt nested ih _ _ (noLinkAt_of_directory inside) arrived

/-! ## The entry of a file that is made -/

theorem exists_ownPlace?_of_create {path : Path} {place : Location} {after : FileTree} (nested : tree.Nested)
    (created : tree.create here path = .ok (place, after)) : ∃ own, tree.ownPlace? here path = some own := by
  have valid : pathFault? path = none := by
    cases fault : pathFault? path with
    | none => rfl
    | some fault' => simp [create, fault] at created
  obtain ⟨_, proper, noDirectory, spot, slash, arrived, rfl⟩ := create_eq_ok created
  rcases List.eq_nil_or_concat path.route.names with empty | ⟨names, last, whole⟩
  · -- the root is all that a path without names leads to
    have root : (Trail.ofPath here path).directory = [] :=
      if_pos (Path.isAbsolute_of_names (text_ne_nil_of_valid valid) empty)
    rw [walk_eq, root, show (Trail.ofPath here path).names = [] from empty, walkNames] at arrived
    cases arrived
    exact absurd rfl proper
  · rw [List.concat_eq_append] at whole
    have trail : Trail.ofPath here path = ⟨(Trail.ofPath here path).directory, names ++ [last], path.route.slashAfter⟩ := by
      rw [← whole]
      rfl
    rw [trail] at arrived
    rcases walk_snoc tree linkLimit (Trail.ofPath here path).directory names with
      ⟨directory, led, inside, further⟩ | ⟨_, astray⟩
    · have one := (further true path.route.slashAfter last).symm.trans arrived
      rw [walk_eq, walkNames_cons] at one
      have parent : IsEntryName last → (true && true && path.route.slashAfter) = false →
          ∃ own, tree.ownPlace? here path = some own := by
        intro named noSlash
        have followed := follow_directory_iff.mpr ⟨led, inside⟩
        exact ⟨last :: directory, ownPlace?_eq_some_iff.mpr ⟨directory, last,
          locateParent_eq_ok_iff.mpr ⟨valid, names, whole, named, by simpa using noSlash.symm, followed⟩, rfl⟩⟩
      cases step : nameStep tree true path.route.slashAfter directory last true with
      | stop fault => simp [step] at one
      | free => exact parent (nameStep_eq_free step).2.1 (nameStep_eq_free step).2.2.1
      | link target => exact parent (nameStep_eq_link step).2.1 (nameStep_eq_link step).2.2.1
      | go reached =>
        obtain entered | ⟨named, noSlash⟩ := isDirectoryAt_of_go nested step
        · simp only [List.isEmpty_nil, step, walkNames] at one
          cases one
          exact absurd (isDirectoryAt_iff.mp entered) noDirectory
        · exact parent named noSlash
    · obtain ⟨fault, failed⟩ := astray true path.route.slashAfter last
      cases failed.symm.trans arrived

end Cadence.FileTree
