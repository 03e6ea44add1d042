import Cadence.FileTree.Operations

/-!
Ways through a tree, a name at a time. What a name does depends only on the directory that the way has come
to and on the entry of that name (`nameStep`), so a way is the same in two trees that agree on the directories
and on the links that it follows (`walk_of_kept`). How many links may be followed matters only to ways that follow
more (`walk_eq_ok_iff_of_le`). The way along a path is the way to the directory of its last name and one name more,
with the links that are left (`walk_snoc`).
-/

namespace Cadence.FileTree

/-! ## One name -/

/-- What a name does to a way. -/
inductive NameStep
  | stop (fault : FileFault)
  /-- The way ends at a name that is not there. -/
  | free
  /-- A link stands there. -/
  | link (target : Path)
  /-- The way goes on from this location. -/
  | go (location : Location)
deriving DecidableEq

/-- What a name does in a directory; `last` says that no name comes after it. -/
def nameStep (tree : FileTree) (making slashAfter : Bool) (directory : Location) (name : Text) (last : Bool) :
    NameStep :=
  if !tree.isDirectoryAt directory then .stop .notADirectory
  else if name = ['.'] then .go directory
  else if name = ['.', '.'] then .go directory.tail
  else if making && last && slashAfter then .stop .isADirectory
  else if longestName < (Utf8.encode name).length then .stop .nameTooLong
  else match tree.entryAt (name :: directory) with
    | none => if last then .free else .stop .notFound
    | some (.link target) => .link target
    | some _ => .go (name :: directory)

/-- How a way goes on after a link, so many links being left. -/
def onward (tree : FileTree) (making : Bool) : Nat → Trail → Except FileFault Arrival
  | 0, _ => .error .tooManyLinks
  | links + 1, trail => walk tree making links trail

theorem walk_eq (tree : FileTree) (making : Bool) (links : Nat) (trail : Trail) :
    walk tree making links trail =
      walkNames tree making (onward tree making links) trail.slashAfter trail.directory trail.names := by
  cases links <;> rfl

theorem walkNames_cons (tree : FileTree) (making : Bool) (follow : Trail → Except FileFault Arrival)
    (slashAfter : Bool) (directory : Location) (name : Text) (rest : List Text) :
    walkNames tree making follow slashAfter directory (name :: rest) =
      match nameStep tree making slashAfter directory name rest.isEmpty with
      | .stop fault => .error fault
      | .free => .ok ⟨.free (name :: directory), slashAfter⟩
      | .link target => follow (.throughLink directory target rest slashAfter)
      | .go location => walkNames tree making follow slashAfter location rest := by
  rw [walkNames, nameStep]
  repeat' split
  all_goals simp_all

/-- The name is a name of an entry, and not too long for one. -/
def IsEntryName (name : Text) : Prop :=
  name ≠ ['.'] ∧ name ≠ ['.', '.'] ∧ (Utf8.encode name).length ≤ longestName

theorem nameStep_of_entryName {tree : FileTree} {making slashAfter : Bool} {directory : Location} {name : Text}
    {last : Bool} (inside : tree.isDirectoryAt directory = true) (named : IsEntryName name)
    (open' : (making && last && slashAfter) = false) :
    nameStep tree making slashAfter directory name last =
      match tree.entryAt (name :: directory) with
      | none => if last then .free else .stop .notFound
      | some (.link target) => .link target
      | some _ => .go (name :: directory) := by
  obtain ⟨notHere, notUp, short⟩ := named
  rw [nameStep, if_neg (by simp [inside]), if_neg notHere, if_neg notUp, if_neg (by simp [open']),
    if_neg (Nat.not_lt.mpr short)]

/-- What does not stop a way stops no way that makes nothing. -/
theorem nameStep_not_making {tree : FileTree} {slashAfter : Bool} {directory : Location} {name : Text} {last : Bool}
    (goes : ∀ fault, nameStep tree true slashAfter directory name last ≠ .stop fault) :
    nameStep tree false slashAfter directory name last = nameStep tree true slashAfter directory name last := by
  unfold nameStep at goes ⊢
  repeat' split
  all_goals simp_all

/-- Before the last name nothing is made, and a slash at the end of the path does not matter. -/
theorem nameStep_inner (tree : FileTree) (making slashAfter : Bool) (directory : Location) (name : Text) :
    nameStep tree making slashAfter directory name false =
      match nameStep tree false true directory name true with
      | .free => .stop .notFound
      | other => other := by
  by_cases inside : tree.isDirectoryAt directory = true
  · by_cases here : name = ['.']
    · simp [nameStep, inside, here]
    · by_cases up : name = ['.', '.']
      · simp [nameStep, inside, up]
      · by_cases long : longestName < (Utf8.encode name).length
        · simp [nameStep, inside, here, up, long]
        · have named : IsEntryName name := ⟨here, up, Nat.le_of_not_lt long⟩
          rw [nameStep_of_entryName inside named (by simp), nameStep_of_entryName inside named (by simp)]
          cases tree.entryAt (name :: directory) with
          | none => rfl
          | some entry => cases entry <;> rfl
  · simp [nameStep, inside]

/-- The last name of a way to a directory, told by what it would do as any last name. -/
theorem nameStep_parent (tree : FileTree) (directory : Location) (name : Text) (last : Bool) :
    nameStep tree false true directory name last =
      match nameStep tree false true directory name true with
      | .free => if last then .free else .stop .notFound
      | other => other := by
  cases last with
  | false => exact nameStep_inner tree false true directory name
  | true => cases nameStep tree false true directory name true <;> rfl

/-! ## Ways that make nothing -/

private theorem walkNames_not_making {tree : FileTree} {making beyond : Trail → Except FileFault Arrival}
    {slashAfter : Bool} {arrival : Arrival}
    (further : ∀ trail, making trail = .ok arrival → beyond trail = .ok arrival) (names : List Text) :
    ∀ directory, walkNames tree true making slashAfter directory names = .ok arrival →
      walkNames tree false beyond slashAfter directory names = .ok arrival := by
  induction names with
  | nil => intro directory arrived; exact arrived
  | cons name rest ih =>
    intro directory arrived
    rw [walkNames_cons] at arrived ⊢
    cases step : nameStep tree true slashAfter directory name rest.isEmpty with
    | stop fault =>
      rw [step] at arrived
      contradiction
    | free =>
      rw [nameStep_not_making (by simp [step]), step]
      rw [step] at arrived
      exact arrived
    | link target =>
      rw [nameStep_not_making (by simp [step]), step]
      rw [step] at arrived
      exact further _ arrived
    | go location =>
      rw [nameStep_not_making (by simp [step]), step]
      rw [step] at arrived
      exact ih location arrived

/-- A way that something can be made at the end of is a way that can be gone. -/
theorem walk_not_making {tree : FileTree} (links : Nat) {arrival : Arrival} :
    ∀ {trail : Trail}, walk tree true links trail = .ok arrival → walk tree false links trail = .ok arrival := by
  induction links with
  | zero =>
    intro trail arrived
    rw [walk_eq] at arrived ⊢
    exact walkNames_not_making (fun _ arrived => arrived) _ _ arrived
  | succ links ih =>
    intro trail arrived
    rw [walk_eq] at arrived ⊢
    exact walkNames_not_making (fun _ arrived => ih arrived) _ _ arrived

/-! ## The links on a way -/

theorem throughLink_snoc (directory : Location) (target : Path) (rest : List Text) (last : Text) (slashAfter : Bool) :
    Trail.throughLink directory target (rest ++ [last]) slashAfter =
      ⟨if target.route.absolute then [] else directory, (target.route.names ++ rest) ++ [last], slashAfter⟩ := by
  simp [Trail.throughLink]

theorem throughLink_parent (directory : Location) (target : Path) (rest : List Text) :
    Trail.throughLink directory target rest true =
      ⟨if target.route.absolute then [] else directory, target.route.names ++ rest, true⟩ := by
  simp [Trail.throughLink]

/-- The links that a way follows along names, `beyond` giving those on the way on from a link. -/
def linksAlong (tree : FileTree) (beyond : Trail → List Location) (slashAfter : Bool) (directory : Location) :
    List Text → List Location
  | [] => []
  | name :: rest => match nameStep tree false slashAfter directory name rest.isEmpty with
    | .link target => (name :: directory) :: beyond (.throughLink directory target rest slashAfter)
    | .go location => linksAlong tree beyond slashAfter location rest
    | _ => []

theorem linksAlong_cons (tree : FileTree) (beyond : Trail → List Location) (slashAfter : Bool) (directory : Location)
    (name : Text) (rest : List Text) : linksAlong tree beyond slashAfter directory (name :: rest) =
      match nameStep tree false slashAfter directory name rest.isEmpty with
      | .link target => (name :: directory) :: beyond (.throughLink directory target rest slashAfter)
      | .go location => linksAlong tree beyond slashAfter location rest
      | _ => [] := rfl

/-- The links that a way follows, at most so many. -/
def linksOn (tree : FileTree) : Nat → Trail → List Location
  | 0, trail => linksAlong tree (fun _ => []) trail.slashAfter trail.directory trail.names
  | links + 1, trail => linksAlong tree (linksOn tree links) trail.slashAfter trail.directory trail.names

section
variable {tree : FileTree} {arrival : Arrival} {fewer : Nat}

private theorem walkNames_within {follow followFewer : Trail → Except FileFault Arrival} {beyond : Trail → List Location}
    (further : ∀ trail,
      followFewer trail = .ok arrival ↔ follow trail = .ok arrival ∧ (beyond trail).length + 1 ≤ fewer)
    (slashAfter : Bool) (names : List Text) : ∀ directory,
    walkNames tree false followFewer slashAfter directory names = .ok arrival ↔
      walkNames tree false follow slashAfter directory names = .ok arrival ∧
        (linksAlong tree beyond slashAfter directory names).length ≤ fewer := by
  induction names with
  | nil => simp [walkNames, linksAlong]
  | cons name rest ih =>
    intro directory
    rw [walkNames_cons, walkNames_cons, linksAlong_cons]
    cases nameStep tree false slashAfter directory name rest.isEmpty with
    | stop fault => simp
    | free => simp
    | link target => exact further _
    | go location => exact ih location

/-- With fewer links to follow, those ways can be gone that follow no more of them. -/
theorem walk_eq_ok_iff_of_le (links : Nat) : ∀ {fewer}, fewer ≤ links → ∀ trail,
    walk tree false fewer trail = .ok arrival ↔
      walk tree false links trail = .ok arrival ∧ (linksOn tree links trail).length ≤ fewer := by
  induction links with
  | zero =>
    intro fewer le trail
    obtain rfl := Nat.le_zero.mp le
    exact walkNames_within (by simp) _ _ _
  | succ links ih =>
    intro fewer le trail
    cases fewer with
    | zero => exact walkNames_within (by simp) _ _ _
    | succ fewer =>
      refine walkNames_within (fun trail => ?_) _ _ _
      rw [ih (Nat.le_of_succ_le_succ le), Nat.succ_le_succ_iff]

private theorem walkNames_slash {follow : Trail → Except FileFault Arrival} {beyond : Trail → List Location}
    {spot : Spot} {asks : Bool}
    (further : ∀ directory names slashAfter, follow ⟨directory, names, slashAfter⟩ = .ok ⟨spot, asks⟩ →
      follow ⟨directory, names, true⟩ = .ok ⟨spot, true⟩ ∧
        beyond ⟨directory, names, true⟩ = beyond ⟨directory, names, slashAfter⟩)
    (slashAfter : Bool) (names : List Text) : ∀ directory,
    walkNames tree false follow slashAfter directory names = .ok ⟨spot, asks⟩ →
      walkNames tree false follow true directory names = .ok ⟨spot, true⟩ ∧
        linksAlong tree beyond true directory names = linksAlong tree beyond slashAfter directory names := by
  induction names with
  | nil =>
    intro directory arrived
    cases arrived
    exact ⟨rfl, rfl⟩
  | cons name rest ih =>
    intro directory arrived
    rw [walkNames_cons, show nameStep tree false slashAfter = nameStep tree false true from rfl] at arrived
    rw [walkNames_cons, linksAlong_cons, linksAlong_cons,
      show nameStep tree false slashAfter = nameStep tree false true from rfl]
    cases step : nameStep tree false true directory name rest.isEmpty with
    | stop fault => simp [step] at arrived
    | free =>
      rw [step] at arrived
      cases arrived
      exact ⟨rfl, rfl⟩
    | link target =>
      rw [step] at arrived
      obtain ⟨arrives, same⟩ := further _ _ _ arrived
      simp only [throughLink_parent]
      exact ⟨arrives, congrArg _ same⟩
    | go location =>
      rw [step] at arrived
      exact ih location arrived

/-- A slash put at the end of a way changes neither where it ends nor the links on it. -/
theorem walk_slash {spot : Spot} {asks : Bool} (links : Nat) : ∀ directory names slashAfter,
    walk tree false links ⟨directory, names, slashAfter⟩ = .ok ⟨spot, asks⟩ →
      walk tree false links ⟨directory, names, true⟩ = .ok ⟨spot, true⟩ ∧
        linksOn tree links ⟨directory, names, true⟩ = linksOn tree links ⟨directory, names, slashAfter⟩ := by
  induction links with
  | zero => exact fun directory names slashAfter => walkNames_slash (by simp) slashAfter names directory
  | succ links ih => exact fun directory names slashAfter => walkNames_slash ih slashAfter names directory

theorem linksOn_length_le {links : Nat} {trail : Trail} (arrived : walk tree false links trail = .ok arrival) :
    (linksOn tree links trail).length ≤ links :=
  ((walk_eq_ok_iff_of_le links (Nat.le_refl _) trail).mp arrived).2

end

/-! ## The directory of the last name -/

/-- Going along the names and one more is going to a directory and one name on from there with the links that are
left, `along` giving those that the names lead through, unless the names lead to no directory. -/
def GoesOn (tree : FileTree) (links : Nat) (run : Bool → Trail → Except FileFault Arrival)
    (along : Trail → List Location) (directory : Location) (names : List Text) : Prop :=
  (∃ location, run false ⟨directory, names, true⟩ = .ok ⟨.entry location, true⟩ ∧
    tree.isDirectoryAt location = true ∧ ∀ making slashAfter last,
      run making ⟨directory, names ++ [last], slashAfter⟩ =
        walk tree making (links - (along ⟨directory, names, true⟩).length) ⟨location, [last], slashAfter⟩) ∨
  ((∀ location slashAfter, run false ⟨directory, names, true⟩ = .ok ⟨.entry location, slashAfter⟩ →
      slashAfter = true ∧ tree.isDirectoryAt location = false) ∧
    ∀ making slashAfter last, ∃ fault, run making ⟨directory, names ++ [last], slashAfter⟩ = .error fault)

private theorem goesOn_walkNames {tree : FileTree} {links : Nat} {beyond : Trail → List Location}
    (further : ∀ directory names,
      GoesOn tree (links - 1) (fun making => onward tree making links) beyond directory names)
    (names : List Text) : ∀ directory, GoesOn tree links (fun making => walk tree making links)
      (fun trail => linksAlong tree beyond trail.slashAfter trail.directory trail.names) directory names := by
  induction names with
  | nil =>
    intro directory
    have here : walk tree false links ⟨directory, [], true⟩ = .ok ⟨.entry directory, true⟩ := by
      rw [walk_eq]
      rfl
    by_cases inside : tree.isDirectoryAt directory = true
    · exact .inl ⟨directory, here, inside, fun _ _ _ => rfl⟩
    · refine .inr ⟨?_, ?_⟩
      · intro location slashAfter arrived
        cases here.symm.trans arrived
        exact ⟨rfl, by simpa using inside⟩
      · intro making slashAfter last
        refine ⟨.notADirectory, ?_⟩
        show walk tree making links ⟨directory, [last], slashAfter⟩ = _
        rw [walk_eq, walkNames_cons]
        simp [nameStep, inside]
  | cons name rest ih =>
    intro directory
    have more : ∀ last, (rest ++ [last]).isEmpty = false := by simp
    have parent : walk tree false links ⟨directory, name :: rest, true⟩ = _ := walk_eq ..
    rw [walkNames_cons, nameStep_parent] at parent
    have whole : ∀ making slashAfter last, walk tree making links ⟨directory, name :: rest ++ [last], slashAfter⟩ = _ :=
      fun making slashAfter last => walk_eq ..
    simp only [List.cons_append, walkNames_cons, more, nameStep_inner tree _ _ directory name] at whole
    have along : linksAlong tree beyond true directory (name :: rest) = _ := linksAlong_cons ..
    rw [nameStep_parent] at along
    unfold GoesOn
    simp only [List.cons_append, parent, whole, along]
    cases nameStep tree false true directory name true with
    | stop fault => exact .inr ⟨by simp, fun _ _ _ => ⟨fault, rfl⟩⟩
    | free =>
      refine .inr ⟨?_, fun _ _ _ => ⟨.notFound, rfl⟩⟩
      cases rest <;> simp
    | link target =>
      simp only [throughLink_snoc, throughLink_parent, List.length_cons, Nat.add_comm _ 1, ← Nat.sub_sub]
      exact further _ _
    | go location =>
      have inner := ih location
      unfold GoesOn at inner
      simp only [walk_eq] at inner
      simpa only [walk_eq] using inner

theorem walk_snoc (tree : FileTree) (links : Nat) : ∀ directory names,
    GoesOn tree links (fun making => walk tree making links) (linksOn tree links) directory names := by
  induction links with
  | zero =>
    intro directory names
    refine goesOn_walkNames (fun directory names => ?_) names directory
    exact .inr ⟨by simp [onward], fun _ _ _ => ⟨.tooManyLinks, rfl⟩⟩
  | succ links ih =>
    intro directory names
    exact goesOn_walkNames ih names directory

/-- Where the names lead to a directory, one name more is one name on from there. -/
theorem walk_concat {tree : FileTree} {links : Nat} {directory location : Location} {names : List Text}
    (led : walk tree false links ⟨directory, names, true⟩ = .ok ⟨.entry location, true⟩)
    (inside : tree.isDirectoryAt location = true) (making slashAfter : Bool) (last : Text) :
    walk tree making links ⟨directory, names ++ [last], slashAfter⟩ =
      walk tree making (links - (linksOn tree links ⟨directory, names, true⟩).length)
        ⟨location, [last], slashAfter⟩ := by
  rcases walk_snoc tree links directory names with ⟨place, arrived, _, further⟩ | ⟨astray, _⟩
  · cases arrived.symm.trans led
    exact further making slashAfter last
  · rw [(astray location true led).2] at inside
    contradiction

/-! ## Ways that are kept -/

theorem isDirectoryAt_iff {tree : FileTree} {location : Location} :
    tree.isDirectoryAt location = true ↔ tree.entryAt location = some .directory := by
  simp [isDirectoryAt]

theorem isFileAt_iff {tree : FileTree} {location : Location} :
    tree.isFileAt location = true ↔ ∃ content, tree.entryAt location = some (.file content) := by
  unfold isFileAt
  split <;> simp_all

theorem nameStep_eq_link {tree : FileTree} {making slashAfter last : Bool} {directory : Location} {name : Text}
    {target : Path} (step : nameStep tree making slashAfter directory name last = .link target) :
    tree.isDirectoryAt directory = true ∧ IsEntryName name ∧ (making && last && slashAfter) = false ∧
      tree.entryAt (name :: directory) = some (.link target) := by
  unfold nameStep at step
  repeat' split at step
  all_goals simp_all [IsEntryName]

theorem nameStep_eq_go {tree : FileTree} {making slashAfter last : Bool} {directory location : Location} {name : Text}
    (step : nameStep tree making slashAfter directory name last = .go location) :
    tree.isDirectoryAt directory = true ∧ ((name = ['.'] ∧ location = directory) ∨
      (name = ['.', '.'] ∧ location = directory.tail) ∨
      (IsEntryName name ∧ (making && last && slashAfter) = false ∧ location = name :: directory ∧
        ∃ entry, tree.entryAt location = some entry ∧ ∀ target, entry ≠ .link target)) := by
  unfold nameStep at step
  repeat' split at step
  all_goals simp_all [IsEntryName]

/-- Only the links on a way are links of the tree. -/
private theorem linksAlong_links {tree : FileTree} {beyond : Trail → List Location} {slashAfter : Bool}
    (further : ∀ trail, ∀ place ∈ beyond trail, ∃ target, tree.entryAt place = some (.link target)) (names : List Text) :
    ∀ directory, ∀ place ∈ linksAlong tree beyond slashAfter directory names,
      ∃ target, tree.entryAt place = some (.link target) := by
  induction names with
  | nil => simp [linksAlong]
  | cons name rest ih =>
    intro directory place member
    rw [linksAlong_cons] at member
    split at member
    · rename_i target step
      rcases List.mem_cons.mp member with rfl | member
      · exact ⟨target, (nameStep_eq_link step).2.2.2⟩
      · exact further _ place member
    · exact ih _ place member
    · simp at member

theorem linksOn_links {tree : FileTree} (links : Nat) : ∀ trail, ∀ place ∈ linksOn tree links trail,
    ∃ target, tree.entryAt place = some (.link target) := by
  induction links with
  | zero =>
    intro trail
    exact linksAlong_links (by simp) trail.names trail.directory
  | succ links ih =>
    intro trail
    exact linksAlong_links ih trail.names trail.directory

section
variable {before after : FileTree} {location : Location} {slash : Bool}

private theorem walkNames_of_kept {follow followAfter : Trail → Except FileFault Arrival}
    {beyond beyondAfter : Trail → List Location} {slashAfter : Bool}
    (directories : ∀ place, before.isDirectoryAt place = true → after.isDirectoryAt place = true)
    (same : after.entryAt location = before.entryAt location)
    (further : ∀ trail, (∀ place ∈ beyond trail, after.entryAt place = before.entryAt place) →
      follow trail = .ok ⟨.entry location, slash⟩ →
      followAfter trail = .ok ⟨.entry location, slash⟩ ∧ beyondAfter trail = beyond trail)
    (names : List Text) : ∀ directory,
    (∀ place ∈ linksAlong before beyond slashAfter directory names, after.entryAt place = before.entryAt place) →
    walkNames before false follow slashAfter directory names = .ok ⟨.entry location, slash⟩ →
    walkNames after false followAfter slashAfter directory names = .ok ⟨.entry location, slash⟩ ∧
      linksAlong after beyondAfter slashAfter directory names = linksAlong before beyond slashAfter directory names := by
  induction names with
  | nil => intro directory kept arrived; exact ⟨arrived, rfl⟩
  | cons name rest ih =>
    intro directory kept arrived
    rw [linksAlong_cons] at kept
    rw [walkNames_cons] at arrived ⊢
    rw [linksAlong_cons, linksAlong_cons]
    cases step : nameStep before false slashAfter directory name rest.isEmpty with
    | stop fault => simp [step] at arrived
    | free => simp [step] at arrived
    | link target =>
      rw [step] at arrived kept
      obtain ⟨inside, named, _, linked⟩ := nameStep_eq_link step
      have linkedAfter := kept (name :: directory) List.mem_cons_self
      obtain ⟨arrives, goes⟩ := further _ (fun place member => kept place (List.mem_cons_of_mem _ member)) arrived
      rw [nameStep_of_entryName (directories _ inside) named rfl, linkedAfter, linked]
      exact ⟨arrives, congrArg _ goes⟩
    | go next =>
      rw [step] at arrived kept
      have goes : nameStep after false slashAfter directory name rest.isEmpty = .go next := by
        obtain ⟨inside, here | up | ⟨named, _, rfl, entry, stands, notLink⟩⟩ := nameStep_eq_go step
        · simp [nameStep, directories _ inside, here.1, here.2]
        · simp [nameStep, directories _ inside, up.1, up.2]
        · have standsAfter : after.entryAt (name :: directory) = some entry := by
            cases rest with
            | nil =>
              cases arrived
              exact same.trans stands
            | cons next more =>
              -- a way goes on only from a directory
              have inner : before.isDirectoryAt (name :: directory) = true := by
                by_cases inner : before.isDirectoryAt (name :: directory) = true
                · exact inner
                · simp [walkNames, inner] at arrived
              rw [isDirectoryAt_iff.mp (directories _ inner), ← isDirectoryAt_iff.mp inner, stands]
          rw [nameStep_of_entryName (directories _ inside) named rfl, standsAfter]
          cases entry with
          | file content => rfl
          | directory => rfl
          | link target => exact absurd rfl (notLink target)
      rw [goes]
      exact ih next kept arrived

/-- A way to an entry is the same, and follows the same links, in a tree that has the same directories, the same links
on the way and the same entry at its end. -/
theorem walk_of_kept (directories : ∀ place, before.isDirectoryAt place = true → after.isDirectoryAt place = true)
    (same : after.entryAt location = before.entryAt location) (links : Nat) : ∀ trail,
    (∀ place ∈ linksOn before links trail, after.entryAt place = before.entryAt place) →
    walk before false links trail = .ok ⟨.entry location, slash⟩ →
    walk after false links trail = .ok ⟨.entry location, slash⟩ ∧ linksOn after links trail = linksOn before links trail := by
  induction links with
  | zero =>
    intro trail kept arrived
    rw [walk_eq] at arrived ⊢
    exact walkNames_of_kept directories same (fun _ _ arrived => ⟨arrived, rfl⟩) trail.names trail.directory kept arrived
  | succ links ih =>
    intro trail kept arrived
    rw [walk_eq] at arrived ⊢
    exact walkNames_of_kept directories same ih trail.names trail.directory kept arrived

end

end Cadence.FileTree
