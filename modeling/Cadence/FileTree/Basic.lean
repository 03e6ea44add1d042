import Cadence.Path

/-!
A tree of files, directories and symbolic links. A place in the tree is a location: the names that lead
to it, the innermost first, so that the root is `[]` and a location's directory is its tail. The tree
maps locations to entries; no location occurs twice. The root is a directory and needs no entry.

Three operations change a tree, each at one location: `put` makes or replaces an entry, `erase` takes
one away and `move` does both.
-/

namespace Cadence

/-- A place in a tree, by the names that lead to it, innermost first. -/
abbrev Location := List Text

/-- What stands at a location. -/
inductive Entry
  | file (content : Bytes)
  | directory
  /-- A symbolic link and the path that it holds. -/
  | link (target : Path)
deriving DecidableEq

/-- Files, directories and links by their locations. -/
structure FileTree where
  entries : List (Location × Entry)
  nodup : (entries.map Prod.fst).Nodup

namespace FileTree

def empty : FileTree := ⟨[], List.nodup_nil⟩

/-- The entry that a list of entries has for a location. -/
def find? (location : Location) : List (Location × Entry) → Option Entry
  | [] => none
  | (place, entry) :: rest => if place = location then some entry else find? location rest

/-- What stands at a location. -/
def entryAt (tree : FileTree) (location : Location) : Option Entry :=
  if location = [] then some .directory else find? location tree.entries

def isDirectoryAt (tree : FileTree) (location : Location) : Bool :=
  tree.entryAt location = some .directory

def isFileAt (tree : FileTree) (location : Location) : Bool :=
  match tree.entryAt location with
  | some (.file _) => true
  | _ => false

/-- The names in a directory, in the order of the entries. -/
def namesIn (tree : FileTree) (directory : Location) : List Text :=
  tree.entries.filterMap fun (place, _) => match place with
    | [] => none
    | name :: parent => if parent = directory then some name else none

/-- Without the entries for a location. -/
def without (location : Location) (entries : List (Location × Entry)) : List (Location × Entry) :=
  entries.filter fun (place, _) => place ≠ location

/-- With the entry for a location that has one replaced. -/
def replaced (location : Location) (entry : Entry) (entries : List (Location × Entry)) :
    List (Location × Entry) :=
  entries.map fun (place, old) => if place = location then (place, entry) else (place, old)

@[simp] theorem map_fst_replaced (location : Location) (entry : Entry) (entries : List (Location × Entry)) :
    (replaced location entry entries).map Prod.fst = entries.map Prod.fst := by
  induction entries with
  | nil => rfl
  | cons head rest ih =>
    simp only [replaced, List.map_cons, List.map_map] at ih ⊢
    split <;> simp_all

theorem nodup_without {location : Location} {entries : List (Location × Entry)}
    (h : (entries.map Prod.fst).Nodup) : ((without location entries).map Prod.fst).Nodup :=
  List.Sublist.nodup (List.Sublist.map _ List.filter_sublist) h

/-- Makes an entry, or replaces the one that stands there. -/
def put (tree : FileTree) (location : Location) (entry : Entry) : FileTree :=
  if h : location ∈ tree.entries.map Prod.fst then
    ⟨replaced location entry tree.entries, by rw [map_fst_replaced]; exact tree.nodup⟩
  else ⟨(location, entry) :: tree.entries, by simpa using ⟨by simpa using h, tree.nodup⟩⟩

/-- Takes the entry away that stands at a location. -/
def erase (tree : FileTree) (location : Location) : FileTree :=
  ⟨without location tree.entries, nodup_without tree.nodup⟩

/-- Takes the entry away from one location and puts it at another. -/
def move (tree : FileTree) (source target : Location) (entry : Entry) : FileTree :=
  (tree.erase source).put target entry

/-! ## What the operations do -/

theorem find?_replaced {location : Location} {entry : Entry} (place : Location)
    {entries : List (Location × Entry)} (h : location ∈ entries.map Prod.fst) :
    find? place (replaced location entry entries)
      = if place = location then some entry else find? place entries := by
  induction entries with
  | nil => simp at h
  | cons head rest ih =>
    obtain ⟨key, old⟩ := head
    simp only [replaced, List.map_cons] at ih ⊢
    by_cases hk : key = location
    · subst hk
      by_cases hp : key = place
      · simp [find?, hp]
      · have hp' : place ≠ key := fun e => hp e.symm
        by_cases hm : key ∈ rest.map Prod.fst
        · simpa [find?, hp, hp'] using ih hm
        · have same : rest.map (fun x => if x.1 = key then (x.1, entry) else (x.1, x.2)) = rest := by
            conv => rhs; rw [← List.map_id rest]
            apply List.map_congr_left
            intro x hx
            have : x.1 ≠ key := fun e => hm (e ▸ List.mem_map_of_mem hx)
            simp [this]
          simp only [find?, hp, hp', if_false, if_true, same]
    · have hm : location ∈ rest.map Prod.fst := by simpa [Ne.symm hk] using h
      simp only [find?, hk, if_false]
      by_cases hp : key = place
      · have : place ≠ location := fun e => hk (hp.trans e)
        simp [hp, this]
      · simp only [hp, if_false]
        exact ih hm

theorem find?_without (location place : Location) (entries : List (Location × Entry)) :
    find? place (without location entries) = if place = location then none else find? place entries := by
  induction entries with
  | nil => simp [without, find?]
  | cons head rest ih =>
    obtain ⟨key, old⟩ := head
    simp only [without, List.filter_cons] at ih ⊢
    by_cases hk : key = location
    · subst hk
      by_cases hp : key = place
      · subst hp; simpa using ih
      · have : place ≠ key := fun e => hp e.symm
        simp [find?, hp, this] at ih ⊢
        exact ih
    · by_cases hp : key = place
      · subst hp; simp [find?, hk]
      · simp only [hk, ne_eq, not_false_eq_true, decide_true, if_true, find?, hp, if_false]
        exact ih

theorem entryAt_put (tree : FileTree) {location : Location} (entry : Entry) (place : Location)
    (h : location ≠ []) :
    (tree.put location entry).entryAt place
      = if place = location then some entry else tree.entryAt place := by
  by_cases hp : place = []
  · subst hp; simp [entryAt, Ne.symm h]
  · simp only [entryAt, hp, if_false]
    unfold put
    split
    · exact find?_replaced place ‹_›
    · by_cases e : location = place
      · subst e; simp [find?]
      · simp [find?, e, Ne.symm e]

theorem entryAt_erase (tree : FileTree) {location : Location} (place : Location) (h : location ≠ []) :
    (tree.erase location).entryAt place = if place = location then none else tree.entryAt place := by
  by_cases hp : place = []
  · subst hp; simp [entryAt, Ne.symm h]
  · simp only [entryAt, hp, if_false, erase]
    exact find?_without location place tree.entries

section
variable (tree : FileTree) {location place : Location} (proper : location ≠ [])
include proper

@[simp] theorem entryAt_put_self (entry : Entry) : (tree.put location entry).entryAt location = some entry := by
  rw [entryAt_put tree entry location proper, if_pos rfl]

@[simp] theorem entryAt_put_of_ne (entry : Entry) (other : place ≠ location) :
    (tree.put location entry).entryAt place = tree.entryAt place := by
  rw [entryAt_put tree entry place proper, if_neg other]

@[simp] theorem entryAt_erase_self : (tree.erase location).entryAt location = none := by
  rw [entryAt_erase tree location proper, if_pos rfl]

@[simp] theorem entryAt_erase_of_ne (other : place ≠ location) :
    (tree.erase location).entryAt place = tree.entryAt place := by
  rw [entryAt_erase tree place proper, if_neg other]

end

end FileTree

end Cadence
