import Cadence.Proofs.FileTree.Ways

/-!
What paths lead to. A path leads to an entry along its way (`locate_eq_ok_iff`); its last name belongs to the
directory that the names before it lead to (`locateParent_eq_ok_iff`). In a tree that keeps the directories and
the links of another, paths lead to the same directories (`Keeps`). Where nothing stands at a path, a file is
made there as a new entry or not at all, and nothing is removed (`NothingAt`).
-/

namespace Cadence.FileTree

variable {tree : FileTree} {here : Location} {path : Path}

/-! ## Where paths lead -/

theorem reached_eq_ok_iff {arrival : Arrival} {location : Location} :
    tree.reached arrival = .ok location ↔ arrival.spot = .entry location ∧
      ∃ entry, tree.entryAt location = some entry ∧ (arrival.slashAfter = true → entry = .directory) := by
  obtain ⟨spot, slashAfter⟩ := arrival
  cases spot with
  | free place => simp [reached]
  | entry place =>
    constructor
    · intro arrived
      cases stands : tree.entryAt place with
      | none => simp [reached, stands] at arrived
      | some entry =>
        simp only [reached, stands] at arrived
        split at arrived
        · contradiction
        · rename_i admitted
          obtain rfl := Except.ok.inj arrived
          refine ⟨rfl, entry, stands, ?_⟩
          intro slash
          exact Decidable.byContradiction fun other => admitted (by simp [show slashAfter = true from slash, other])
    · rintro ⟨⟨⟩, entry, stands, admitted⟩
      simp only [reached, stands]
      rw [if_neg]
      simpa using admitted

theorem follow_eq_ok_iff {trail : Trail} {location : Location} :
    tree.follow trail = .ok location ↔ ∃ slashAfter entry,
      walk tree false linkLimit trail = .ok ⟨.entry location, slashAfter⟩ ∧
        tree.entryAt location = some entry ∧ (slashAfter = true → entry = .directory) := by
  unfold follow
  constructor
  · intro followed
    split at followed
    · contradiction
    · rename_i arrival arrived
      obtain ⟨spot, entry, stands, slash⟩ := reached_eq_ok_iff.mp followed
      obtain ⟨_, slashAfter⟩ := arrival
      cases spot
      exact ⟨slashAfter, entry, arrived, stands, slash⟩
  · rintro ⟨slashAfter, entry, arrived, stands, slash⟩
    rw [arrived]
    exact reached_eq_ok_iff.mpr ⟨rfl, entry, stands, slash⟩

theorem pathFault?_eq_none_iff : pathFault? path = none ↔
    '\x00' ∉ path.text ∧ path.text ≠ [] ∧ (Utf8.encode path.text).length < pathBytes := by
  unfold pathFault?
  repeat' split
  all_goals simp_all

theorem text_ne_nil_of_valid (valid : pathFault? path = none) : path.text ≠ [] :=
  (pathFault?_eq_none_iff.mp valid).2.1

theorem locate_eq_ok_iff {location : Location} :
    tree.locate here path = .ok location ↔ pathFault? path = none ∧ tree.follow (.ofPath here path) = .ok location := by
  unfold locate
  cases pathFault? path <;> simp

theorem exists_entryAt_of_locate {location : Location} (located : tree.locate here path = .ok location) :
    ∃ entry, tree.entryAt location = some entry := by
  obtain ⟨_, entry, _, stands, _⟩ := follow_eq_ok_iff.mp (locate_eq_ok_iff.mp located).2
  exact ⟨entry, stands⟩

theorem follow_directory_iff {directory location : Location} {names : List Text} :
    tree.follow ⟨directory, names, true⟩ = .ok location ↔
      walk tree false linkLimit ⟨directory, names, true⟩ = .ok ⟨.entry location, true⟩ ∧
        tree.isDirectoryAt location = true := by
  rw [follow_eq_ok_iff]
  constructor
  · rintro ⟨slashAfter, entry, arrived, stands, slash⟩
    rcases walk_snoc tree linkLimit directory names with ⟨place, led, inside, _⟩ | ⟨astray, _⟩
    · cases led.symm.trans arrived
      exact ⟨led, inside⟩
    · obtain ⟨rfl, outside⟩ := astray location slashAfter arrived
      rw [slash rfl, ← isDirectoryAt_iff, outside] at stands
      contradiction
  · rintro ⟨arrived, inside⟩
    exact ⟨true, .directory, arrived, isDirectoryAt_iff.mp inside, fun _ => rfl⟩

/-- The last name of a path and the directory that the names before it lead to. -/
theorem locateParent_eq_ok_iff {parent : Parent} :
    tree.locateParent here path = .ok parent ↔ pathFault? path = none ∧ ∃ names,
      path.route.names = names ++ [parent.name] ∧ IsEntryName parent.name ∧
        parent.slashAfter = path.route.slashAfter ∧
        tree.follow ⟨(Trail.ofPath here path).directory, names, true⟩ = .ok parent.directory := by
  unfold locateParent
  cases pathFault? path with
  | some fault => simp
  | none =>
    simp only [true_and]
    constructor
    · intro found
      split at found
      · contradiction
      · rename_i directory followed
        split at found
        · contradiction
        · rename_i name last
          obtain ⟨names, whole⟩ := List.getLast?_eq_some_iff.mp last
          split at found
          · contradiction
          · rename_i proper
            split at found
            · contradiction
            · rename_i short
              obtain rfl := Except.ok.inj found
              rw [whole, List.dropLast_concat] at followed
              rw [not_or] at proper
              exact ⟨names, whole, ⟨proper.1, proper.2, Nat.le_of_not_lt short⟩, rfl, followed⟩
    · rintro ⟨names, whole, ⟨notHere, notUp, short⟩, slash, followed⟩
      have split : (Trail.ofPath here path).names = names ++ [parent.name] := whole
      rw [split, List.dropLast_concat, followed, List.getLast?_concat]
      simp only
      rw [if_neg (by simp [notHere, notUp]), if_neg (Nat.not_lt.mpr short)]
      obtain ⟨_, _, _⟩ := parent
      exact congrArg _ (Parent.mk.injEq .. ▸ ⟨rfl, rfl, slash.symm⟩)

/-- The way along a path is one name on from the directory of its last name. -/
theorem walk_of_locateParent {parent : Parent} (found : tree.locateParent here path = .ok parent) :
    tree.isDirectoryAt parent.directory = true ∧ ∃ links, ∀ making, walk tree making linkLimit (.ofPath here path) =
      walk tree making links ⟨parent.directory, [parent.name], parent.slashAfter⟩ := by
  obtain ⟨_, names, whole, _, slash, followed⟩ := locateParent_eq_ok_iff.mp found
  obtain ⟨arrived, inside⟩ := follow_directory_iff.mp followed
  refine ⟨inside, ?_⟩
  have trail : Trail.ofPath here path = ⟨(Trail.ofPath here path).directory, names ++ [parent.name], parent.slashAfter⟩ := by
    rw [slash, ← whole]
    rfl
  refine ⟨linkLimit - (linksOn tree linkLimit ⟨(Trail.ofPath here path).directory, names, true⟩).length,
    fun making => ?_⟩
  rw [trail]
  exact walk_concat arrived inside making parent.slashAfter parent.name

/-- What a path leads to whose last name belongs to no link. -/
theorem follow_of_locateParent {parent : Parent} (found : tree.locateParent here path = .ok parent)
    (notLink : ∀ target, tree.entryAt (parent.name :: parent.directory) ≠ some (.link target)) :
    tree.follow (.ofPath here path) = match tree.entryAt (parent.name :: parent.directory) with
      | none => .error .notFound
      | some entry =>
        if parent.slashAfter && entry ≠ .directory then .error .notADirectory
        else .ok (parent.name :: parent.directory) := by
  obtain ⟨_, _, _, named, _⟩ := locateParent_eq_ok_iff.mp found
  obtain ⟨inside, links, further⟩ := walk_of_locateParent found
  rw [follow, further false, walk_eq, walkNames_cons, nameStep_of_entryName inside named rfl]
  cases stands : tree.entryAt (parent.name :: parent.directory) with
  | none => rfl
  | some entry =>
    cases entry with
    | link target => exact absurd stands (notLink target)
    | file content => simp [walkNames, reached, stands]
    | directory => simp [walkNames, reached, stands]

/-- The entry that a path names, its last name not followed. -/
def placeOf? (tree : FileTree) (here : Location) (path : Path) : Option Location :=
  match tree.locateParent here path with
  | .error _ => none
  | .ok parent => some (parent.name :: parent.directory)

/-! ## Trees that agree -/

/-- The second tree has the directories and the links of the first. -/
structure Keeps (before after : FileTree) : Prop where
  directories : ∀ location, before.isDirectoryAt location = true → after.isDirectoryAt location = true
  links : ∀ location target, before.entryAt location = some (.link target) → after.entryAt location = some (.link target)

namespace Keeps

variable {before after : FileTree} {location : Location}

theorem refl (tree : FileTree) : Keeps tree tree :=
  ⟨fun _ inside => inside, fun _ _ linked => linked⟩

theorem trans {between : FileTree} (first : Keeps before between) (second : Keeps between after) : Keeps before after :=
  ⟨fun location inside => second.directories location (first.directories location inside),
    fun location target linked => second.links location target (first.links location target linked)⟩

theorem entryAt_directory (keeps : Keeps before after) (inside : before.isDirectoryAt location = true) :
    after.entryAt location = before.entryAt location := by
  rw [isDirectoryAt_iff.mp (keeps.directories location inside), isDirectoryAt_iff.mp inside]

theorem walk {links : Nat} {trail : Trail} {slash : Bool} (keeps : Keeps before after)
    (same : after.entryAt location = before.entryAt location)
    (arrived : before.walk false links trail = .ok ⟨.entry location, slash⟩) :
    after.walk false links trail = .ok ⟨.entry location, slash⟩ := by
  refine (walk_of_kept keeps.directories same links trail ?_ arrived).1
  intro place member
  obtain ⟨target, linked⟩ := linksOn_links links trail place member
  rw [keeps.links place target linked, linked]

theorem follow {trail : Trail} (keeps : Keeps before after) (same : after.entryAt location = before.entryAt location)
    (followed : before.follow trail = .ok location) : after.follow trail = .ok location := by
  obtain ⟨slashAfter, entry, arrived, stands, slash⟩ := follow_eq_ok_iff.mp followed
  exact follow_eq_ok_iff.mpr ⟨slashAfter, entry, keeps.walk same arrived, same.trans stands, slash⟩

theorem locate (keeps : Keeps before after) (same : after.entryAt location = before.entryAt location)
    (located : before.locate here path = .ok location) : after.locate here path = .ok location := by
  obtain ⟨valid, followed⟩ := locate_eq_ok_iff.mp located
  exact locate_eq_ok_iff.mpr ⟨valid, keeps.follow same followed⟩

theorem locateParent {parent : Parent} (keeps : Keeps before after) (found : before.locateParent here path = .ok parent) :
    after.locateParent here path = .ok parent := by
  obtain ⟨valid, names, whole, named, slash, followed⟩ := locateParent_eq_ok_iff.mp found
  have same := keeps.entryAt_directory (follow_directory_iff.mp followed).2
  exact locateParent_eq_ok_iff.mpr ⟨valid, names, whole, named, slash, keeps.follow same followed⟩

end Keeps

theorem isDirectoryAt_put {location place : Location} (content : Bytes) (proper : location ≠ [])
    (noDirectory : tree.entryAt location ≠ some .directory) (inside : tree.isDirectoryAt place = true) :
    (tree.put location (.file content)).isDirectoryAt place = true := by
  rw [isDirectoryAt_iff] at inside ⊢
  rwa [entryAt_put_of_ne tree proper]
  rintro rfl
  exact noDirectory inside

theorem keeps_put {location : Location} (content : Bytes) (proper : location ≠ [])
    (noDirectory : tree.entryAt location ≠ some .directory) (noLink : ∀ target, tree.entryAt location ≠ some (.link target)) :
    Keeps tree (tree.put location (.file content)) := by
  refine ⟨fun place inside => isDirectoryAt_put content proper noDirectory inside, ?_⟩
  intro place target linked
  rwa [entryAt_put_of_ne tree proper]
  rintro rfl
  exact noLink target linked

/-- A file that was put in a tree adds no directory and no link to it. -/
theorem keeps_of_put {location : Location} (content : Bytes) (proper : location ≠ []) :
    Keeps (tree.put location (.file content)) tree := by
  constructor
  · intro place inside
    rw [isDirectoryAt_iff] at inside ⊢
    rw [entryAt_put tree _ place proper] at inside
    split at inside
    · simp at inside
    · exact inside
  · intro place target linked
    rw [entryAt_put tree _ place proper] at linked
    split at linked
    · simp at linked
    · exact linked

/-! ## Where nothing stands -/

/-- No file, directory or link stands at the path: neither does it lead anywhere nor does its last name, unfollowed,
belong to an entry. -/
def NothingAt (tree : FileTree) (here : Location) (path : Path) : Prop :=
  (∀ location, tree.locate here path ≠ .ok location) ∧ ∀ parent, tree.locateParent here path = .ok parent →
    parent.slashAfter = false → tree.entryAt (parent.name :: parent.directory) = none

theorem nameStep_eq_free {making slashAfter last : Bool} {directory : Location} {name : Text}
    (step : nameStep tree making slashAfter directory name last = .free) :
    tree.isDirectoryAt directory = true ∧ IsEntryName name ∧ (making && last && slashAfter) = false ∧
      tree.entryAt (name :: directory) = none := by
  unfold nameStep at step
  repeat' split at step
  all_goals simp_all [IsEntryName]

theorem nothingAt_of_unnamed {names : List Text} {name : Text} (whole : path.route.names = names ++ [name])
    (named : IsEntryName name) (unnamed : ∀ parent, tree.locateParent here path = .ok parent →
      tree.entryAt (parent.name :: parent.directory) = none) : tree.NothingAt here path := by
  refine ⟨?_, fun parent found _ => unnamed parent found⟩
  intro location located
  obtain ⟨valid, followed⟩ := locate_eq_ok_iff.mp located
  obtain ⟨slashAfter, entry, arrived, _⟩ := follow_eq_ok_iff.mp followed
  have trail : Trail.ofPath here path = ⟨(Trail.ofPath here path).directory, names ++ [name], path.route.slashAfter⟩ := by
    rw [← whole]
    rfl
  rw [trail] at arrived
  rcases walk_snoc tree linkLimit (Trail.ofPath here path).directory names with
    ⟨directory, led, inside, further⟩ | ⟨_, astray⟩
  · have free : tree.entryAt (name :: directory) = none :=
      unnamed ⟨directory, name, path.route.slashAfter⟩ (locateParent_eq_ok_iff.mpr
        ⟨valid, names, whole, named, rfl, follow_directory_iff.mpr ⟨led, inside⟩⟩)
    have one := (further false path.route.slashAfter name).symm.trans arrived
    rw [walk_eq, walkNames_cons, nameStep_of_entryName inside named rfl, free] at one
    simp at one
  · obtain ⟨fault, failed⟩ := astray false path.route.slashAfter name
    cases failed.symm.trans arrived

/-- Where something is to be made and the way ends at a free name, that is the last name of the path, unless a link
stands there. -/
theorem locateParent_of_free {place : Location} {slashAfter : Bool} (valid : pathFault? path = none)
    (arrived : walk tree true linkLimit (.ofPath here path) = .ok ⟨.free place, slashAfter⟩) : ∃ directory name,
      tree.locateParent here path = .ok ⟨directory, name, false⟩ ∧
        ((place = name :: directory ∧ tree.entryAt place = none) ∨
          ∃ target, tree.entryAt (name :: directory) = some (.link target)) := by
  rcases List.eq_nil_or_concat path.route.names with empty | ⟨names, last, whole⟩
  · rw [walk_eq, show (Trail.ofPath here path).names = [] from empty] at arrived
    simp [walkNames] at arrived
  rw [List.concat_eq_append] at whole
  have trail : Trail.ofPath here path = ⟨(Trail.ofPath here path).directory, names ++ [last], path.route.slashAfter⟩ := by
    rw [← whole]
    rfl
  rw [trail] at arrived
  rcases walk_snoc tree linkLimit (Trail.ofPath here path).directory names with
    ⟨directory, led, inside, further⟩ | ⟨_, astray⟩
  · have one := (further true path.route.slashAfter last).symm.trans arrived
    rw [walk_eq, walkNames_cons] at one
    have parent : IsEntryName last → path.route.slashAfter = false →
        tree.locateParent here path = .ok ⟨directory, last, false⟩ := fun named noSlash =>
      locateParent_eq_ok_iff.mpr ⟨valid, names, whole, named, noSlash.symm, follow_directory_iff.mpr ⟨led, inside⟩⟩
    cases step : nameStep tree true path.route.slashAfter directory last true with
    | stop fault => simp [step] at one
    | free =>
      obtain ⟨_, named, noSlash, free⟩ := nameStep_eq_free step
      simp only [List.isEmpty_nil, step, Except.ok.injEq, Arrival.mk.injEq, Spot.free.injEq] at one
      obtain ⟨rfl, _⟩ := one
      exact ⟨directory, last, parent named (by simpa using noSlash), .inl ⟨rfl, free⟩⟩
    | link target =>
      obtain ⟨_, named, noSlash, linked⟩ := nameStep_eq_link step
      exact ⟨directory, last, parent named (by simpa using noSlash), .inr ⟨target, linked⟩⟩
    | go place => simp [step, walkNames] at one
  · obtain ⟨fault, failed⟩ := astray true path.route.slashAfter last
    cases failed.symm.trans arrived

/-- A file made where nothing stands is a new entry for the last name of the path. -/
theorem create_of_nothing {location : Location} {after : FileTree} (nothing : tree.NothingAt here path)
    (created : tree.create here path = .ok (location, after)) : ∃ directory name,
      tree.locateParent here path = .ok ⟨directory, name, false⟩ ∧ location = name :: directory ∧
        tree.entryAt location = none ∧ after = tree.put location (.file []) := by
  obtain ⟨nowhere, unnamed⟩ := nothing
  unfold create at created
  cases valid : pathFault? path with
  | some fault => simp [valid] at created
  | none =>
    cases arrived : walk tree true linkLimit (.ofPath here path) with
    | error fault => simp [valid, arrived] at created
    | ok arrival =>
      obtain ⟨spot, slashAfter⟩ := arrival
      simp only [valid, arrived] at created
      cases spot with
      | entry place =>
        simp only at created
        split at created
        · contradiction
        · rename_i place reached
          refine absurd (locate_eq_ok_iff.mpr ⟨valid, ?_⟩) (nowhere place)
          rw [follow, walk_not_making linkLimit arrived]
          exact reached
      | free place =>
        cases created
        obtain ⟨directory, name, found, ⟨rfl, free⟩ | ⟨target, linked⟩⟩ := locateParent_of_free valid arrived
        · exact ⟨directory, name, found, rfl, free, rfl⟩
        · rw [unnamed _ found rfl] at linked
          contradiction

theorem create_of_locateParent {directory : Location} {name : Text}
    (found : tree.locateParent here path = .ok ⟨directory, name, false⟩) (free : tree.entryAt (name :: directory) = none) :
    tree.create here path = .ok (name :: directory, tree.put (name :: directory) (.file [])) := by
  obtain ⟨valid, _, _, named, _, _⟩ := locateParent_eq_ok_iff.mp found
  obtain ⟨inside, links, further⟩ := walk_of_locateParent found
  have arrived : walk tree true linkLimit (.ofPath here path) = .ok ⟨.free (name :: directory), false⟩ := by
    rw [further true, walk_eq, walkNames_cons, nameStep_of_entryName inside named rfl, free]
    rfl
  rw [create, valid, arrived]

theorem remove_of_nothing (nothing : tree.NothingAt here path) : ∃ fault, tree.remove here path = .error fault := by
  unfold remove
  cases found : tree.locateParent here path with
  | error fault => exact ⟨fault, rfl⟩
  | ok old =>
    cases stands : tree.entryAt (old.name :: old.directory) with
    | none => exact ⟨.notFound, by simp [stands]⟩
    | some entry =>
      cases slash : old.slashAfter with
      | false =>
        rw [nothing.2 old found slash] at stands
        contradiction
      | true => cases entry <;> exact ⟨_, by simp [stands, slash]; rfl⟩

end Cadence.FileTree
