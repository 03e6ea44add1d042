import Cadence.FileTree.Walk

/-!
Changes that cancel out, as equations between whole trees. An entry that is made twice is made as the second
time (`put_put`); an entry that was made where nothing stood is taken away without a trace (`erase_put`), and
one that is moved on from there might as well have been made where it ends up (`move_put`).
-/

namespace Cadence.FileTree

theorem eq_of_entries {first second : FileTree} (same : first.entries = second.entries) : first = second := by
  cases first
  cases second
  cases same
  rfl

theorem not_mem_of_find? {location : Location} {entries : List (Location × Entry)}
    (nothing : find? location entries = none) : location ∉ entries.map Prod.fst := by
  induction entries with
  | nil => simp
  | cons head rest ih =>
    obtain ⟨place, entry⟩ := head
    rw [find?] at nothing
    split at nothing
    · contradiction
    · rename_i other
      rw [List.map_cons, List.mem_cons, not_or]
      exact ⟨Ne.symm other, ih nothing⟩

theorem mem_of_find? {location : Location} {entry : Entry} {entries : List (Location × Entry)}
    (found : find? location entries = some entry) : (location, entry) ∈ entries := by
  induction entries with
  | nil => contradiction
  | cons head rest ih =>
    obtain ⟨place, old⟩ := head
    rw [find?] at found
    split at found
    · rename_i same
      rw [same, Option.some.inj found]
      exact List.mem_cons_self
    · exact List.mem_cons_of_mem _ (ih found)

theorem noLinks_of_entries {tree : FileTree} (plain : ∀ pair ∈ tree.entries, ∀ target, pair.2 ≠ .link target)
    (place : Location) (target : Path) : tree.entryAt place ≠ some (.link target) := by
  intro linked
  unfold entryAt at linked
  split at linked
  · simp at linked
  · exact plain _ (mem_of_find? linked) target rfl

theorem not_mem_of_entryAt {tree : FileTree} {location : Location} (free : tree.entryAt location = none) :
    location ≠ [] ∧ location ∉ tree.entries.map Prod.fst := by
  unfold entryAt at free
  split at free
  · contradiction
  · exact ⟨‹_›, not_mem_of_find? free⟩

theorem replaced_of_not_mem {location : Location} {entry : Entry} {entries : List (Location × Entry)}
    (new : location ∉ entries.map Prod.fst) : replaced location entry entries = entries := by
  induction entries with
  | nil => rfl
  | cons head rest ih =>
    obtain ⟨place, old⟩ := head
    rw [List.map_cons, List.mem_cons, not_or] at new
    have inner := ih new.2
    unfold replaced at inner ⊢
    rw [List.map_cons, inner]
    simp only [if_neg (Ne.symm new.1)]

theorem without_of_not_mem {location : Location} {entries : List (Location × Entry)}
    (new : location ∉ entries.map Prod.fst) : without location entries = entries := by
  unfold without
  rw [List.filter_eq_self]
  rintro ⟨place, entry⟩ member
  have other : place ≠ location := by
    rintro rfl
    exact new (List.mem_map_of_mem member)
  simpa using other

theorem replaced_replaced (location : Location) (first second : Entry) (entries : List (Location × Entry)) :
    replaced location second (replaced location first entries) = replaced location second entries := by
  unfold replaced
  rw [List.map_map]
  apply List.map_congr_left
  rintro ⟨place, entry⟩ _
  by_cases same : place = location
  · simp [same]
  · simp [same]

theorem entries_put_of_mem {tree : FileTree} {location : Location} (entry : Entry)
    (old : location ∈ tree.entries.map Prod.fst) :
    (tree.put location entry).entries = replaced location entry tree.entries := by
  rw [put, dif_pos old]

theorem entries_put_of_not_mem {tree : FileTree} {location : Location} (entry : Entry)
    (new : location ∉ tree.entries.map Prod.fst) :
    (tree.put location entry).entries = (location, entry) :: tree.entries := by
  rw [put, dif_neg new]

@[simp] theorem put_put (tree : FileTree) (location : Location) (first second : Entry) :
    (tree.put location first).put location second = tree.put location second := by
  apply eq_of_entries
  by_cases old : location ∈ tree.entries.map Prod.fst
  · have still : location ∈ (tree.put location first).entries.map Prod.fst := by
      rw [entries_put_of_mem first old, map_fst_replaced]
      exact old
    rw [entries_put_of_mem second still, entries_put_of_mem first old, entries_put_of_mem second old,
      replaced_replaced]
  · have now : location ∈ (tree.put location first).entries.map Prod.fst := by
      rw [entries_put_of_not_mem first old]
      exact List.mem_cons_self
    rw [entries_put_of_mem second now, entries_put_of_not_mem first old, entries_put_of_not_mem second old]
    show (if location = location then (location, second) else (location, first)) :: replaced location second _ = _
    rw [if_pos rfl, replaced_of_not_mem old]

theorem erase_put {tree : FileTree} {location : Location} (entry : Entry) (free : tree.entryAt location = none) :
    (tree.put location entry).erase location = tree := by
  obtain ⟨_, new⟩ := not_mem_of_entryAt free
  apply eq_of_entries
  show without location (tree.put location entry).entries = tree.entries
  rw [entries_put_of_not_mem entry new]
  have dropped : without location ((location, entry) :: tree.entries) = without location tree.entries := by
    simp [without]
  rw [dropped, without_of_not_mem new]

/-- An entry made where nothing stood and moved on from there leaves only the place that it is moved to. -/
theorem move_put {tree : FileTree} {source : Location} (target : Location) (first second : Entry)
    (free : tree.entryAt source = none) : (tree.put source first).move source target second = tree.put target second := by
  rw [move, erase_put first free]

end Cadence.FileTree
