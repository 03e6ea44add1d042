import Cadence.Proofs.FileTree.Frames

/-!
What making, renaming and removing files do, each at the places that it is about. A file is made where the way of
its path ends (`create_eq_ok`), which is the entry that the path names unless a link stands there
(`create_place`). A link that has been renamed leads where it led before, or nowhere (`walk_of_moved`).
-/

namespace Cadence.FileTree

variable {tree after : FileTree} {here place : Location} {path : Path}

/-- The entry that a path names, its last name not followed, unless a slash asks for a directory there. -/
def ownPlace? (tree : FileTree) (here : Location) (path : Path) : Option Location :=
  if path.route.slashAfter then none else tree.placeOf? here path

theorem ownPlace?_eq_some_iff : tree.ownPlace? here path = some place ↔
    ∃ directory name, tree.locateParent here path = .ok ⟨directory, name, false⟩ ∧ place = name :: directory := by
  unfold ownPlace? placeOf?
  cases found : tree.locateParent here path with
  | error fault => simp
  | ok parent =>
    obtain ⟨directory, name, slashAfter⟩ := parent
    obtain ⟨_, _, _, _, same, _⟩ := locateParent_eq_ok_iff.mp found
    rw [← same]
    cases slashAfter with
    | true => simp
    | false =>
      constructor
      · intro named
        exact ⟨directory, name, rfl, (Option.some.inj named).symm⟩
      · rintro ⟨_, _, same, rfl⟩
        cases same
        rfl

theorem ownPlace?_proper (named : tree.ownPlace? here path = some place) : place ≠ [] := by
  obtain ⟨_, _, _, rfl⟩ := ownPlace?_eq_some_iff.mp named
  exact List.cons_ne_nil _ _

theorem Keeps.ownPlace? {before : FileTree} (keeps : Keeps before after) (named : before.ownPlace? here path = some place) :
    after.ownPlace? here path = some place := by
  obtain ⟨directory, name, found, rfl⟩ := ownPlace?_eq_some_iff.mp named
  exact ownPlace?_eq_some_iff.mpr ⟨directory, name, keeps.locateParent found, rfl⟩

/-! ## Making -/

/-- Where a way ends, whether or not an entry is there. -/
def Spot.location : Spot → Location
  | .entry location => location
  | .free location => location

private theorem walkNames_free {making : Bool} {follow : Trail → Except FileFault Arrival} {slashAfter slash : Bool}
    (further : ∀ trail, follow trail = .ok ⟨.free place, slash⟩ → place ≠ [] ∧ tree.entryAt place = none)
    (names : List Text) : ∀ directory, walkNames tree making follow slashAfter directory names = .ok ⟨.free place, slash⟩ →
      place ≠ [] ∧ tree.entryAt place = none := by
  induction names with
  | nil => intro directory arrived; cases arrived
  | cons name rest ih =>
    intro directory arrived
    rw [walkNames_cons] at arrived
    cases step : nameStep tree making slashAfter directory name rest.isEmpty with
    | stop fault => simp [step] at arrived
    | free =>
      rw [step] at arrived
      cases arrived
      exact ⟨List.cons_ne_nil _ _, (nameStep_eq_free step).2.2.2⟩
    | link target =>
      rw [step] at arrived
      exact further _ arrived
    | go next =>
      rw [step] at arrived
      exact ih next arrived

/-- A way that ends at a free name ends where nothing stands. -/
theorem walk_free {making slash : Bool} (links : Nat) : ∀ {trail : Trail},
    walk tree making links trail = .ok ⟨.free place, slash⟩ → place ≠ [] ∧ tree.entryAt place = none := by
  induction links with
  | zero =>
    intro trail arrived
    rw [walk_eq] at arrived
    exact walkNames_free (fun _ arrived => by cases arrived) _ _ arrived
  | succ links ih =>
    intro trail arrived
    rw [walk_eq] at arrived
    exact walkNames_free (fun _ arrived => ih arrived) _ _ arrived

/-- A file is made where the way of its path ends, and not in the place of a directory. -/
theorem create_eq_ok (created : tree.create here path = .ok (place, after)) :
    after = tree.put place (.file []) ∧ place ≠ [] ∧ tree.entryAt place ≠ some .directory ∧ ∃ spot slash,
      walk tree true linkLimit (.ofPath here path) = .ok ⟨spot, slash⟩ ∧ spot.location = place := by
  unfold create at created
  cases valid : pathFault? path with
  | some fault => simp [valid] at created
  | none =>
    cases arrived : walk tree true linkLimit (.ofPath here path) with
    | error fault => simp [valid, arrived] at created
    | ok arrival =>
      obtain ⟨spot, slash⟩ := arrival
      simp only [valid, arrived] at created
      cases spot with
      | free location =>
        cases created
        obtain ⟨proper, free⟩ := walk_free linkLimit arrived
        exact ⟨rfl, proper, by simp [free], _, _, rfl, rfl⟩
      | entry location =>
        simp only at created
        split at created
        · contradiction
        · rename_i reachedAt arrives
          obtain ⟨same, _⟩ := reached_eq_ok_iff.mp arrives
          obtain rfl : location = reachedAt := Spot.entry.inj same
          split at created
          · contradiction
          · rename_i outside
            cases created
            rw [isDirectoryAt_iff] at outside
            refine ⟨rfl, ?_, outside, _, _, rfl, rfl⟩
            rintro rfl
            exact outside rfl

/-- The place where a file is made is the entry that the path names, or a link there leads to it. -/
theorem create_place {own : Location} (created : tree.create here path = .ok (place, after))
    (named : tree.ownPlace? here path = some own) : place = own ∨
      ∃ target, tree.entryAt own = some (.link target) ∧ ∃ links spot slash,
        walk tree false links (.throughLink own.tail target [] false) = .ok ⟨spot, slash⟩ ∧ spot.location = place := by
  obtain ⟨_, _, noDirectory, spot, slash, arrived, rfl⟩ := create_eq_ok created
  obtain ⟨directory, name, found, rfl⟩ := ownPlace?_eq_some_iff.mp named
  obtain ⟨_, _, _, entryName, _⟩ := locateParent_eq_ok_iff.mp found
  obtain ⟨inside, links, further⟩ := walk_of_locateParent found
  rw [further true, walk_eq, walkNames_cons, nameStep_of_entryName inside entryName rfl] at arrived
  cases stands : tree.entryAt (name :: directory) with
  | none =>
    left
    simp only [stands, List.isEmpty_nil, if_true] at arrived
    cases arrived
    rfl
  | some entry =>
    cases entry with
    | file content =>
      left
      simp only [stands, walkNames] at arrived
      cases arrived
      rfl
    | directory =>
      left
      simp only [stands, walkNames] at arrived
      cases arrived
      rfl
    | link target =>
      right
      simp only [stands] at arrived
      cases links with
      | zero => simp [onward] at arrived
      | succ links => exact ⟨target, rfl, links, spot, slash, walk_not_making links arrived, rfl⟩

/-! ## Removing and renaming -/

theorem remove_eq_ok (removed : tree.remove here path = .ok after) : ∃ own, tree.ownPlace? here path = some own ∧
    own ≠ [] ∧ tree.entryAt own ≠ some .directory ∧ after = tree.erase own := by
  unfold remove at removed
  cases found : tree.locateParent here path with
  | error fault => simp [found] at removed
  | ok parent =>
    obtain ⟨directory, name, slashAfter⟩ := parent
    simp only [found] at removed
    split at removed
    · contradiction
    · contradiction
    · rename_i entry noDirectory stands
      cases slashAfter with
      | true => simp at removed
      | false =>
        simp only [Bool.false_eq_true, if_false, Except.ok.injEq] at removed
        refine ⟨name :: directory, ownPlace?_eq_some_iff.mpr ⟨directory, name, found, rfl⟩, List.cons_ne_nil _ _, ?_,
          removed.symm⟩
        intro inside
        exact noDirectory (Option.some.inj (stands.symm.trans inside))

/-- Where a removal fails, no file or link bears the name. -/
theorem remove_eq_error {fault : FileFault} {own : Location} (failed : tree.remove here path = .error fault)
    (named : tree.ownPlace? here path = some own) : tree.entryAt own = none ∨ tree.entryAt own = some .directory := by
  obtain ⟨directory, name, found, rfl⟩ := ownPlace?_eq_some_iff.mp named
  unfold remove at failed
  simp only [found] at failed
  cases stands : tree.entryAt (name :: directory) with
  | none => exact .inl rfl
  | some entry => cases entry <;> simp_all

theorem rename_eq_ok {source target : Path} (renamed : tree.rename here source target = .ok after) :
    ∃ old new entry, tree.ownPlace? here source = some old ∧ tree.ownPlace? here target = some new ∧
      tree.entryAt old = some entry ∧ entry ≠ .directory ∧ tree.entryAt new ≠ some .directory ∧
      after = if old = new then tree else tree.move old new entry := by
  unfold rename at renamed
  cases foundOld : tree.locateParent here source with
  | error fault => simp [foundOld] at renamed
  | ok oldParent =>
    cases foundNew : tree.locateParent here target with
    | error fault => simp [foundOld, foundNew] at renamed
    | ok newParent =>
      obtain ⟨oldDirectory, oldName, oldSlash⟩ := oldParent
      obtain ⟨newDirectory, newName, newSlash⟩ := newParent
      simp only [foundOld, foundNew] at renamed
      split at renamed
      · contradiction
      · contradiction
      · rename_i entry noDirectory stands
        split at renamed
        · contradiction
        · rename_i noSlash
          obtain ⟨rfl, rfl⟩ : oldSlash = false ∧ newSlash = false := by simpa using noSlash
          split at renamed
          · contradiction
          · rename_i outside
            refine ⟨oldName :: oldDirectory, newName :: newDirectory, entry,
              ownPlace?_eq_some_iff.mpr ⟨_, _, foundOld, rfl⟩, ownPlace?_eq_some_iff.mpr ⟨_, _, foundNew, rfl⟩, stands,
              noDirectory, ?_, ?_⟩
            · rwa [isDirectoryAt_iff] at outside
            · split at renamed
              · rename_i same
                rw [if_pos same]
                exact (Except.ok.inj renamed).symm
              · rename_i other
                rw [if_neg other]
                exact (Except.ok.inj renamed).symm

/-! ## Links that are moved -/

private theorem walkNames_through {follow : Trail → Except FileFault Arrival} {beyond : Trail → List Location}
    {arrival : Arrival} {link : Location} {target : Path} {slashAfter : Bool} {goal : Prop}
    (linked : tree.entryAt link = some (.link target))
    (there : ∀ rest asks, follow (.throughLink link.tail target rest asks) = .ok arrival → goal)
    (further : ∀ trail, link ∈ beyond trail → follow trail = .ok arrival → goal) (names : List Text) :
    ∀ directory, link ∈ linksAlong tree beyond slashAfter directory names →
      walkNames tree false follow slashAfter directory names = .ok arrival → goal := by
  induction names with
  | nil => simp [linksAlong]
  | cons name rest ih =>
    intro directory member arrived
    rw [linksAlong] at member
    rw [walkNames_cons] at arrived
    cases step : nameStep tree false slashAfter directory name rest.isEmpty with
    | stop fault => simp [step] at arrived
    | free => simp [step] at member
    | link path =>
      rw [step] at member arrived
      rcases List.mem_cons.mp member with rfl | member
      · have stands := (nameStep_eq_link step).2.2.2
        rw [linked] at stands
        cases stands
        exact there _ _ arrived
      · exact further _ member arrived
    | go next =>
      rw [step] at member arrived
      exact ih next member arrived

/-- A way that follows a link goes on from there as the link says. -/
theorem walk_through {arrival : Arrival} {link : Location} {target : Path}
    (linked : tree.entryAt link = some (.link target)) (links : Nat) : ∀ {trail : Trail}, link ∈ linksOn tree links trail →
      walk tree false links trail = .ok arrival → ∃ fewer rest asks,
        walk tree false fewer (.throughLink link.tail target rest asks) = .ok arrival := by
  induction links with
  | zero =>
    intro trail member arrived
    rw [walk_eq] at arrived
    exact walkNames_through linked (fun _ _ failed => by cases failed) (fun _ none => by cases none) _ _ member arrived
  | succ links ih =>
    intro trail member arrived
    rw [walk_eq] at arrived
    exact walkNames_through linked (fun rest asks arrived => ⟨links, rest, asks, arrived⟩) (fun _ => ih) _ _ member arrived

private theorem throughLink_append (directory : Location) (target : Path) (first rest : List Text) (slash now : Bool) :
    ∃ asks, Trail.throughLink directory target (first ++ rest) now =
      ⟨(Trail.throughLink directory target first slash).directory,
        (Trail.throughLink directory target first slash).names ++ rest, asks⟩ :=
  ⟨_, by simp [Trail.throughLink]; rfl⟩

/-- A way that has come to what is no directory ends there. -/
private theorem walkNames_outside {making : Bool} {follow : Trail → Except FileFault Arrival} {slashAfter now : Bool}
    {goal place : Location} (outside : tree.isDirectoryAt goal = false) {rest : List Text}
    (arrived : walkNames tree making follow slashAfter goal rest = .ok ⟨.entry place, now⟩) : place = goal := by
  cases rest with
  | nil =>
    cases arrived
    rfl
  | cons name more => simp [walkNames, outside] at arrived

section
variable {before : FileTree} {old new goal : Location} {target : Path} {spot : Spot} {slash : Bool}
  (gone : after.entryAt old = none) (linked : after.entryAt new = some (.link target))
  (file : goal ≠ new → ∃ content, after.entryAt goal = some (.file content))
  (others : ∀ other, other ≠ old → other ≠ new → other ≠ goal → after.entryAt other = before.entryAt other)

section
include linked file

private theorem goal_outside : after.isDirectoryAt goal = false := by
  rw [Bool.eq_false_iff, ne_eq, isDirectoryAt_iff]
  by_cases same : goal = new
  · simp [same, linked]
  · obtain ⟨content, stands⟩ := file same
    simp [stands]

end

section
include gone others

private theorem entryAt_unmoved {place : Location} {entry : Entry} (stands : after.entryAt place = some entry)
    (notNew : place ≠ new) (notGoal : place ≠ goal) : before.entryAt place = some entry := by
  have notOld : place ≠ old := by
    rintro rfl
    rw [gone] at stands
    cases stands
  rw [← others place notOld notNew notGoal, stands]

end

variable (ends : spot.location = goal)
include gone linked file others ends

private theorem walkNames_goal {follow followAfter : Trail → Except FileFault Arrival} {slashAfter slashNow : Bool}
    (further : ∀ trail, follow trail = .ok ⟨spot, slash⟩ → ∀ rest asks {place now},
      followAfter ⟨trail.directory, trail.names ++ rest, asks⟩ = .ok ⟨.entry place, now⟩ → place = goal)
    (again : ∀ rest asks {place now},
      followAfter (.throughLink new.tail target rest asks) = .ok ⟨.entry place, now⟩ → place = goal)
    (names : List Text) : ∀ directory, walkNames before false follow slashAfter directory names = .ok ⟨spot, slash⟩ →
      ∀ rest {place now}, walkNames after false followAfter slashNow directory (names ++ rest) = .ok ⟨.entry place, now⟩ →
        place = goal := by
  induction names with
  | nil =>
    intro directory arrived rest place now arrives
    cases arrived
    obtain rfl : directory = goal := ends
    exact walkNames_outside (goal_outside linked file) arrives
  | cons name more ih =>
    intro directory arrived rest place now arrives
    rw [walkNames_cons] at arrived
    rw [List.cons_append, walkNames_cons] at arrives
    have inside : before.isDirectoryAt directory = true := by
      by_cases inside : before.isDirectoryAt directory = true
      · exact inside
      · simp [nameStep, inside] at arrived
    cases step : nameStep after false slashNow directory name (more ++ rest).isEmpty with
    | stop fault => simp [step] at arrives
    | free => simp [step] at arrives
    | link path =>
      rw [step] at arrives
      obtain ⟨_, named, _, stands⟩ := nameStep_eq_link step
      by_cases first : name :: directory = new
      · subst first
        rw [linked] at stands
        cases stands
        exact again _ _ arrives
      · have notGoal : name :: directory ≠ goal := by
          rintro rfl
          obtain ⟨content, stands'⟩ := file first
          rw [stands'] at stands
          cases stands
        rw [nameStep_of_entryName inside named rfl, entryAt_unmoved gone others stands first notGoal] at arrived
        obtain ⟨asks, onwards⟩ := throughLink_append directory path more rest slashAfter slashNow
        simp only [onwards] at arrives
        exact further _ arrived rest asks arrives
    | go next =>
      rw [step] at arrives
      obtain ⟨_, idle | up | ⟨named, _, rfl, entry, stands, notLink⟩⟩ := nameStep_eq_go step
      · obtain ⟨rfl, rfl⟩ := idle
        simp only [nameStep, inside, Bool.not_true, Bool.false_eq_true, if_false, if_true] at arrived
        exact ih next arrived rest arrives
      · obtain ⟨rfl, rfl⟩ := up
        simp [nameStep, inside] at arrived
        exact ih _ arrived rest arrives
      · by_cases arrivedThere : name :: directory = goal
        · rw [arrivedThere] at arrives
          exact walkNames_outside (goal_outside linked file) arrives
        · have notNew : name :: directory ≠ new := by
            rintro rfl
            rw [linked] at stands
            exact notLink _ (Option.some.inj stands).symm
          rw [nameStep_of_entryName inside named rfl, entryAt_unmoved gone others stands notNew arrivedThere] at arrived
          cases entry with
          | link path => exact absurd rfl (notLink path)
          | file content => exact ih _ arrived rest arrives
          | directory => exact ih _ arrived rest arrives

private theorem walk_goal (links : Nat) : ∀ {trail : Trail}, walk before false links trail = .ok ⟨spot, slash⟩ →
    ∀ {more : Nat}, (∀ fewer < more, ∀ rest asks {place now},
      walk after false fewer (.throughLink new.tail target rest asks) = .ok ⟨.entry place, now⟩ → place = goal) →
    ∀ rest asks {place now}, walk after false more ⟨trail.directory, trail.names ++ rest, asks⟩ = .ok ⟨.entry place, now⟩ →
      place = goal := by
  induction links with
  | zero =>
    intro trail arrived more again rest asks place now arrives
    rw [walk_eq] at arrived arrives
    refine walkNames_goal gone linked file others ends ?_ ?_ _ _ arrived rest arrives
    · intro trail failed
      cases failed
    · intro rest asks place now arrives
      cases more with
      | zero => cases arrives
      | succ more => exact again more (Nat.lt_succ_self more) rest asks arrives
  | succ links ih =>
    intro trail arrived more again rest asks place now arrives
    rw [walk_eq] at arrived arrives
    refine walkNames_goal gone linked file others ends ?_ ?_ _ _ arrived rest arrives
    · intro trail arrived rest asks place now arrives
      cases more with
      | zero => cases arrives
      | succ more =>
        exact ih arrived (fun fewer less => again fewer (Nat.lt_succ_of_lt less)) rest asks arrives
    · intro rest asks place now arrives
      cases more with
      | zero => cases arrives
      | succ more => exact again more (Nat.lt_succ_self more) rest asks arrives

/-- A link that was moved within its directory leads where it led before or, through itself, nowhere. -/
theorem walk_of_moved {links : Nat} {asked : Bool}
    (led : walk before false links (.throughLink new.tail target [] asked) = .ok ⟨spot, slash⟩) (more : Nat) :
    ∀ rest asks {place now}, walk after false more (.throughLink new.tail target rest asks) = .ok ⟨.entry place, now⟩ →
      place = goal := by
  induction more using Nat.strongRecOn with
  | _ more ih =>
    intro rest asks place now arrives
    obtain ⟨now, onwards⟩ := throughLink_append new.tail target [] rest asked asks
    rw [List.nil_append] at onwards
    rw [onwards] at arrives
    exact walk_goal gone linked file others ends links led ih rest now arrives

end

end Cadence.FileTree
