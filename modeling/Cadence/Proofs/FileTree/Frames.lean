import Cadence.Proofs.FileTree.Places

/-!
What paths lead to in trees that differ at some places only (`Frame`). A path stops at the links on its way and at
its end (`stops`); where it stops at none of the places, it reads the same in both trees (`Frame.contentOf`). Each
operation that changes a tree changes it at the places that it is about.
-/

namespace Cadence.FileTree

variable {tree before between after : FileTree} {here location : Location} {path : Path}

/-! ## Stops -/

/-- The links on the way of a path and the location that it leads to, if it leads anywhere. -/
def stops (tree : FileTree) (here : Location) (path : Path) : List Location :=
  linksOn tree linkLimit (.ofPath here path) ++ (tree.locate here path).toOption.toList

/-- What the file holds that a path leads to. -/
def contentOf (tree : FileTree) (here : Location) (path : Path) : Except FileFault Bytes :=
  (tree.locate here path).bind tree.contentAt

theorem contentOf_eq_ok_iff {content : Bytes} : tree.contentOf here path = .ok content ↔
    ∃ location, tree.locate here path = .ok location ∧ tree.entryAt location = some (.file content) := by
  unfold contentOf
  cases tree.locate here path with
  | error fault => simp [Except.bind]
  | ok location =>
    simp only [Except.bind, contentAt, Except.ok.injEq, exists_eq_left']
    split <;> simp_all

theorem stops_of_locate (located : tree.locate here path = .ok location) :
    tree.stops here path = linksOn tree linkLimit (.ofPath here path) ++ [location] := by
  rw [stops, located]
  rfl

/-! ## Frames -/

/-- Two trees with the same directories that differ at these places only. -/
structure Frame (touched : List Location) (before after : FileTree) : Prop where
  directories : ∀ place, after.isDirectoryAt place = before.isDirectoryAt place
  same : ∀ place, place ∉ touched → after.entryAt place = before.entryAt place

namespace Frame

variable {touched first second : List Location}

theorem refl (touched : List Location) (tree : FileTree) : Frame touched tree tree :=
  ⟨fun _ => rfl, fun _ _ => rfl⟩

theorem symm (frame : Frame touched before after) : Frame touched after before :=
  ⟨fun place => (frame.directories place).symm, fun place untouched => (frame.same place untouched).symm⟩

theorem mono (frame : Frame first before after) (more : first ⊆ second) : Frame second before after :=
  ⟨frame.directories, fun place untouched => frame.same place fun inside => untouched (more inside)⟩

theorem trans (one : Frame touched before between) (other : Frame touched between after) : Frame touched before after :=
  ⟨fun place => (other.directories place).trans (one.directories place),
    fun place untouched => (other.same place untouched).trans (one.same place untouched)⟩

section
variable (frame : Frame touched before after) (apart : ∀ place ∈ before.stops here path, place ∉ touched)
include frame apart

/-- A path that stops at no place where the trees differ has the same way in both. -/
theorem locate (located : before.locate here path = .ok location) :
    after.locate here path = .ok location ∧ after.stops here path = before.stops here path := by
  obtain ⟨valid, followed⟩ := locate_eq_ok_iff.mp located
  obtain ⟨slashAfter, entry, arrived, stands, slash⟩ := follow_eq_ok_iff.mp followed
  rw [stops_of_locate located] at apart
  have same : after.entryAt location = before.entryAt location :=
    frame.same location (apart location (List.mem_append_right _ List.mem_cons_self))
  obtain ⟨arrives, links⟩ := walk_of_kept (fun place inside => (frame.directories place).trans inside) same linkLimit
    (.ofPath here path) (fun place member => frame.same place (apart place (List.mem_append_left _ member))) arrived
  have locatedAfter : after.locate here path = .ok location :=
    locate_eq_ok_iff.mpr ⟨valid, follow_eq_ok_iff.mpr ⟨slashAfter, entry, arrives, same.trans stands, slash⟩⟩
  refine ⟨locatedAfter, ?_⟩
  rw [stops_of_locate locatedAfter, stops_of_locate located, links]

theorem contentOf {content : Bytes} (read : before.contentOf here path = .ok content) :
    after.contentOf here path = .ok content ∧ after.stops here path = before.stops here path := by
  obtain ⟨location, located, stands⟩ := contentOf_eq_ok_iff.mp read
  obtain ⟨locatedAfter, stops⟩ := frame.locate apart located
  refine ⟨contentOf_eq_ok_iff.mpr ⟨location, locatedAfter, ?_⟩, stops⟩
  rw [frame.same location, stands]
  apply apart
  rw [stops_of_locate located]
  exact List.mem_append_right _ List.mem_cons_self

end

end Frame

/-! ## Changes at single places -/

section
variable {source target : Location} {entry : Entry}

theorem frame_put (proper : location ≠ []) (noDirectory : tree.entryAt location ≠ some .directory)
    (other : entry ≠ .directory) : Frame [location] tree (tree.put location entry) := by
  constructor
  · intro place
    rw [Bool.eq_iff_iff, isDirectoryAt_iff, isDirectoryAt_iff, entryAt_put tree _ _ proper]
    by_cases same : place = location
    · subst same
      simp [other, noDirectory]
    · rw [if_neg same]
  · intro place untouched
    exact entryAt_put_of_ne tree proper _ (by simpa using untouched)

theorem frame_erase (proper : location ≠ []) (noDirectory : tree.entryAt location ≠ some .directory) :
    Frame [location] tree (tree.erase location) := by
  constructor
  · intro place
    rw [Bool.eq_iff_iff, isDirectoryAt_iff, isDirectoryAt_iff, entryAt_erase tree _ proper]
    by_cases same : place = location
    · subst same
      simp [noDirectory]
    · rw [if_neg same]
  · intro place untouched
    exact entryAt_erase_of_ne tree proper (by simpa using untouched)

theorem entryAt_move (properSource : source ≠ []) (properTarget : target ≠ []) (place : Location) :
    (tree.move source target entry).entryAt place =
      if place = target then some entry else if place = source then none else tree.entryAt place := by
  rw [move, entryAt_put _ _ _ properTarget, entryAt_erase _ _ properSource]

theorem frame_move (properSource : source ≠ []) (properTarget : target ≠ [])
    (noSource : tree.entryAt source ≠ some .directory) (noTarget : tree.entryAt target ≠ some .directory)
    (other : entry ≠ .directory) : Frame [source, target] tree (tree.move source target entry) := by
  have erased : Frame [source, target] tree (tree.erase source) :=
    (frame_erase properSource noSource).mono (by simp)
  have still : (tree.erase source).entryAt target ≠ some .directory := by
    rw [entryAt_erase tree _ properSource]
    split
    · simp
    · exact noTarget
  exact erased.trans ((frame_put properTarget still other).mono (by simp))

end

end Cadence.FileTree
