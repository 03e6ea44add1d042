import Mathlib.Data.List.TakeWhile
import Cadence.FileTree.Walk
import Cadence.Proofs.Text.Pieces

/-!
Names in paths. The names that a path goes along on its route are those that it is written with, so its file
name is the last name on the route where that is the name of an entry (`Path.fileName?_of_last`). A name put
after a path is one name more on its route (`Path.route_names_join`). The draft of an output has the last name of
the output with a dot before it (`Path.last_name_of_draft`).
-/

namespace Cadence.Path

theorem mem_pieces_of_mem_names {path : Path} {name : Text} (member : name ∈ path.route.names) :
    name ∈ pieces '/' path.text ∧ name ≠ [] := by
  simpa [route] using member

theorem plain_of_mem_names {path : Path} {name : Text} (member : name ∈ path.route.names) : '/' ∉ name ∧ name ≠ [] :=
  ⟨not_mem_of_mem_pieces name (mem_pieces_of_mem_names member).1, (mem_pieces_of_mem_names member).2⟩

theorem isAbsolute_of_names {path : Path} (some : path.text ≠ []) (unnamed : path.route.names = []) :
    path.isAbsolute = true := by
  cases written : path.text with
  | nil => exact absurd written some
  | cons first rest =>
    by_cases root : first = '/'
    · simp [isAbsolute, written, root]
    · obtain ⟨piece, others, after⟩ := List.exists_cons_of_ne_nil (pieces_ne_nil '/' rest)
      have named : first :: piece ∈ path.route.names := by
        simp [route, written, pieces_cons_of_ne root after]
      rw [unnamed] at named
      cases named

/-- Of pieces, the first that is not empty is a step where it is the name of an entry. -/
private theorem findSome?_step {name : Text} (notHere : name ≠ ['.']) (notUp : name ≠ ['.', '.']) (all : List Text) :
    all.find? (· ≠ []) = some name → all.findSome? Step.ofPiece? = some (.name name) := by
  induction all with
  | nil => simp
  | cons piece rest ih =>
    intro found
    by_cases empty : piece = []
    · subst empty
      rw [List.find?_cons_of_neg (by simp)] at found
      rw [List.findSome?_cons]
      exact ih found
    · rw [List.find?_cons_of_pos (by simpa using empty)] at found
      obtain rfl := Option.some.inj found
      rw [List.findSome?_cons, Step.ofPiece?, if_neg (by simp [isIdle, empty, notHere]), if_neg notUp]

/-- A path whose last name is the name of an entry ends in this name. -/
theorem fileName?_of_last {path : Path} {name : Text} (last : path.route.names.getLast? = some name)
    (notHere : name ≠ ['.']) (notUp : name ≠ ['.', '.']) : path.fileName? = some name := by
  have found : (pieces '/' path.text).reverse.find? (· ≠ []) = some name := by
    rw [← List.getLast?_filter]
    exact last
  have step : ((pieces '/' path.text).filterMap Step.ofPiece?).getLast? = some (.name name) := by
    rw [List.getLast?_filterMap]
    exact findSome?_step notHere notUp _ found
  rw [fileName?, steps, List.getLast?_append, step]
  rfl

@[simp] theorem relative_of_plain {name : Text} (plain : '/' ∉ name) : (Path.mk name).isAbsolute = false := by
  cases name with
  | nil => rfl
  | cons c rest =>
    have other : c ≠ '/' := by
      rintro rfl
      exact plain List.mem_cons_self
    simp [isAbsolute, other]

/-! ## Directories -/

theorem isAbsolute_iff {path : Path} :
    path.isAbsolute = true ↔ ∃ second rest, pieces '/' path.text = [] :: second :: rest := by
  rw [isAbsolute, decide_eq_true_iff, head?_eq_separator_iff]

theorem isIdle_iff {piece : Text} : isIdle piece = true ↔ piece = [] ∨ piece = ['.'] := by
  simp [isIdle]

/-- The directory of a path has the pieces before the last that stands for a step, up to those next to it that stand
for none. -/
theorem directory_of_pieces {path : Path} {name : Text} {front blanks : List Text}
    (whole : pieces '/' path.text = front ++ name :: blanks) (something : ¬ isIdle name = true)
    (blank : ∀ piece ∈ blanks, isIdle piece = true) : ∃ before idle, front = before ++ idle ∧
      (∀ piece ∈ idle, isIdle piece = true) ∧ (∀ piece, before.getLast? = some piece → isIdle piece = false) ∧
      (before = [] →
        path.directory = ⟨if path.isAbsolute then ['/'] else if path.beginsHere then ['.'] else []⟩) ∧
      (before ≠ [] → pieces '/' path.directory.text = before) := by
  have parted := List.takeWhile_append_dropWhile (p := isIdle) (l := front.reverse)
  have up : ((pieces '/' path.text).reverse.dropWhile isIdle).tail.dropWhile isIdle = front.reverse.dropWhile isIdle := by
    have blankReversed : ∀ piece ∈ blanks.reverse, isIdle piece = true :=
      fun piece member => blank piece (List.mem_reverse.mp member)
    rw [whole, List.reverse_append, List.reverse_cons, List.append_assoc, List.dropWhile_append_of_pos blankReversed,
      List.singleton_append, List.dropWhile_cons_of_neg something, List.tail_cons]
  refine ⟨(front.reverse.dropWhile isIdle).reverse, (front.reverse.takeWhile isIdle).reverse, ?_, ?_, ?_, ?_, ?_⟩
  · rw [← List.reverse_append, parted, List.reverse_reverse]
  · intro piece member
    exact List.mem_takeWhile_imp (List.mem_reverse.mp member)
  · intro piece ended
    have stopped := List.head?_dropWhile_not isIdle front.reverse
    rw [List.getLast?_reverse] at ended
    simpa only [ended] using stopped
  · intro none
    rw [List.reverse_eq_nil_iff] at none
    simp only [directory, up, none, List.isEmpty_nil, if_true]
  · intro some
    have plain : ∀ piece ∈ (front.reverse.dropWhile isIdle).reverse, '/' ∉ piece := by
      intro piece member
      have inFront := (List.dropWhile_sublist isIdle).subset (List.mem_reverse.mp member)
      have isPiece : piece ∈ pieces '/' path.text := by
        rw [whole]
        exact List.mem_append_left _ (List.mem_reverse.mp inFront)
      exact not_mem_of_mem_pieces piece isPiece
    rw [ne_eq, List.reverse_eq_nil_iff] at some
    simp only [directory, up, List.isEmpty_iff, if_neg some]
    exact pieces_intercalate (by simpa using some) plain

/-- The pieces of a path are those of its directory, pieces that stand for no step, the last name and empty ones. -/
private theorem pieces_of_last {path : Path} {name : Text} (last : path.route.names.getLast? = some name)
    (notHere : name ≠ ['.']) : ∃ before idle blanks, pieces '/' path.text = before ++ idle ++ name :: blanks ∧
      (∀ piece ∈ idle, piece = [] ∨ piece = ['.']) ∧ (∀ piece ∈ blanks, piece = []) ∧
      (∀ piece, before.getLast? = some piece → piece ≠ []) ∧
      (before = [] →
        path.directory = ⟨if path.isAbsolute then ['/'] else if path.beginsHere then ['.'] else []⟩) ∧
      (before ≠ [] → pieces '/' path.directory.text = before) := by
  have found : (pieces '/' path.text).reverse.find? (· ≠ []) = some name := by
    rw [← List.getLast?_filter]
    exact last
  obtain ⟨something, blanks, front, reversed, empty⟩ := List.find?_eq_some_iff_append.mp found
  have whole : pieces '/' path.text = front.reverse ++ name :: blanks.reverse := by
    rw [← List.reverse_reverse (pieces '/' path.text), reversed]
    simp
  have blank : ∀ piece ∈ blanks.reverse, piece = [] := by
    intro piece member
    simpa using empty piece (List.mem_reverse.mp member)
  have notIdle : ¬ isIdle name = true := by
    rw [isIdle_iff, not_or]
    exact ⟨by simpa using something, notHere⟩
  obtain ⟨before, idle, parted, idles, ended, above⟩ :=
    directory_of_pieces whole notIdle fun piece member => isIdle_iff.mpr (.inl (blank piece member))
  refine ⟨before, idle, blanks.reverse, by rw [whole, parted], fun piece member => isIdle_iff.mp (idles piece member),
    blank, ?_, above⟩
  rintro piece isLast rfl
  exact absurd (ended [] isLast) (by decide)

/-- The directory of a path begins where the path does and goes along the names before the last, up to pieces `.`. -/
theorem route_directory {path : Path} {name : Text} (last : path.route.names.getLast? = some name)
    (notHere : name ≠ ['.']) : path.directory.isAbsolute = path.isAbsolute ∧ ∃ names idle others,
      path.route.names = names ++ idle ++ [name] ∧ path.directory.route.names = names ++ others ∧
        ∀ piece ∈ idle ++ others, piece = ['.'] := by
  obtain ⟨before, idle, blanks, whole, idles, empty, ended, bare, parts⟩ := pieces_of_last last notHere
  have something := (plain_of_mem_names (List.mem_of_getLast? last)).2
  have names : path.route.names = before.filter (· ≠ []) ++ idle.filter (· ≠ []) ++ [name] := by
    have blank : blanks.filter (· ≠ []) = [] := by
      rw [List.filter_eq_nil_iff]
      intro piece member
      simp [empty piece member]
    rw [route, whole, List.filter_append, List.filter_append, List.filter_cons_of_pos (by simpa using something), blank]
  have quiet : ∀ piece ∈ idle.filter (· ≠ []), piece = ['.'] := by
    intro piece member
    obtain ⟨member, nonempty⟩ := List.mem_filter.mp member
    exact (idles piece member).resolve_left (by simpa using nonempty)
  cases before with
  | nil =>
    rw [bare rfl]
    by_cases absolute : path.isAbsolute = true
    · simp only [absolute, if_true]
      refine ⟨rfl, [], idle.filter (· ≠ []), [], names, rfl, by simpa using quiet⟩
    · simp only [absolute, Bool.false_eq_true, if_false]
      by_cases here : path.beginsHere = true
      · simp only [here, if_true]
        refine ⟨rfl, [], idle.filter (· ≠ []), [['.']], names, rfl, ?_⟩
        intro piece member
        rcases List.mem_append.mp member with member | member
        · exact quiet piece member
        · exact List.mem_singleton.mp member
      · simp only [here, Bool.false_eq_true, if_false]
        exact ⟨rfl, [], idle.filter (· ≠ []), [], names, rfl, by simpa using quiet⟩
  | cons first rest =>
    have parts := parts (List.cons_ne_nil _ _)
    refine ⟨?_, _, _, [], names, ?_, by simpa using quiet⟩
    · rw [Bool.eq_iff_iff, isAbsolute_iff, isAbsolute_iff, parts, whole]
      cases rest with
      | nil =>
        have nonempty := ended first rfl
        simp [nonempty]
      | cons second more => simp
    · rw [route, parts, List.append_nil]

theorem mem_of_mem_directory {path : Path} {name : Text} (last : path.route.names.getLast? = some name)
    (notHere : name ≠ ['.']) {c : Char} (member : c ∈ path.directory.text) : c ∈ path.text ∨ c = '/' ∨ c = '.' := by
  obtain ⟨before, idle, blanks, whole, _, _, _, bare, parts⟩ := pieces_of_last last notHere
  by_cases slash : c = '/'
  · exact .inr (.inl slash)
  · cases before with
    | nil =>
      rw [bare rfl] at member
      simp only at member
      split at member
      · exact absurd (List.mem_singleton.mp member) slash
      · split at member
        · exact .inr (.inr (List.mem_singleton.mp member))
        · cases member
    | cons first rest =>
      obtain ⟨piece, isPiece, inPiece⟩ := exists_mem_pieces slash member
      rw [parts (List.cons_ne_nil _ _)] at isPiece
      have isPiece : piece ∈ pieces '/' path.text := by
        rw [whole]
        exact List.mem_append_left _ (List.mem_append_left _ isPiece)
      exact .inl (mem_of_mem_pieces piece isPiece inPiece)

/-! ## Names put after a path -/

theorem isAbsolute_join {directory further : Path} (relative : further.isAbsolute = false) :
    (directory.join further).isAbsolute = directory.isAbsolute := by
  unfold join
  rw [if_neg (by simp [relative])]
  obtain ⟨text⟩ := directory
  cases text with
  | nil => exact relative
  | cons c rest => split <;> rfl

section
variable {directory : Path} {name : Text} (plain : '/' ∉ name) (something : name ≠ [])
include plain something

@[simp] theorem route_names_join : (directory.join ⟨name⟩).route.names = directory.route.names ++ [name] := by
  unfold join
  rw [if_neg (by simp [plain])]
  by_cases ended : directory.text = [] ∨ directory.text.getLast? = some '/'
  · rw [if_pos ended]
    rcases ended with empty | slash
    · simp [route, empty, plain, something]
    · obtain ⟨before, whole⟩ := List.getLast?_eq_some_iff.mp slash
      have alone : pieces '/' (before ++ ['/']) = pieces '/' before ++ [[]] := pieces_append_cons '/' before []
      simp [route, whole, alone, plain, something]
  · rw [if_neg ended]
    simp [route, plain, something]

@[simp] theorem slashAfter_join : (directory.join ⟨name⟩).route.slashAfter = false := by
  have last : ∀ front : Text, (front ++ name).getLast? ≠ some '/' := by
    intro front slash
    cases ended : name.getLast? with
    | none => exact something (List.getLast?_eq_none_iff.mp ended)
    | some c =>
      rw [List.getLast?_append, ended] at slash
      obtain rfl := Option.some.inj slash
      exact plain (List.mem_of_getLast? ended)
  unfold join
  rw [if_neg (by simp [plain])]
  split
  · simpa [route] using last directory.text
  · simpa [route] using last (directory.text ++ ['/'])

end

/-! ## Drafts -/

section
variable {output : Path} {name : Text} (last : output.route.names.getLast? = some name) (notHere : name ≠ ['.'])
  (notUp : name ≠ ['.', '.'])
include last notHere notUp

theorem draft_eq_join : output.draft = output.directory.join ⟨'.' :: name⟩ ∧ '/' ∉ '.' :: name := by
  have named := fileName?_of_last last notHere notUp
  obtain ⟨plain, _⟩ := plain_of_mem_names (List.mem_of_getLast? last)
  constructor
  · rw [draft, lastName, named, Option.getD_some, withFileName, named]
  · rw [List.mem_cons, not_or]
    exact ⟨by decide, plain⟩

theorem last_name_of_draft : output.draft.route.names.getLast? = some ('.' :: name) := by
  obtain ⟨same, plain⟩ := draft_eq_join last notHere notUp
  rw [same, route_names_join plain (List.cons_ne_nil _ _), List.getLast?_concat]

/-- A draft and its output begin alike and go along the same names before the last, up to pieces `.`. -/
theorem route_draft : output.draft.route.absolute = output.route.absolute ∧ ∃ names idle others,
    output.route.names = names ++ idle ++ [name] ∧ output.draft.route.names = names ++ others ++ ['.' :: name] ∧
      ∀ piece ∈ idle ++ others, piece = ['.'] := by
  obtain ⟨same, plain⟩ := draft_eq_join last notHere notUp
  obtain ⟨absolute, names, idle, others, whole, above, quiet⟩ := route_directory last notHere
  refine ⟨?_, names, idle, others, whole, ?_, quiet⟩
  · rw [same]
    exact (isAbsolute_join (relative_of_plain plain)).trans absolute
  · rw [same, route_names_join plain (List.cons_ne_nil _ _), above]

theorem slashAfter_of_draft : output.draft.route.slashAfter = false := by
  obtain ⟨same, plain⟩ := draft_eq_join last notHere notUp
  rw [same]
  exact slashAfter_join plain (List.cons_ne_nil _ _)

theorem mem_of_mem_draft {c : Char} (member : c ∈ output.draft.text) : c ∈ output.text ∨ c = '/' ∨ c = '.' := by
  obtain ⟨same, plain⟩ := draft_eq_join last notHere notUp
  obtain ⟨isPiece, _⟩ := mem_pieces_of_mem_names (List.mem_of_getLast? last)
  have ofName : c ∈ '.' :: name → c ∈ output.text ∨ c = '/' ∨ c = '.' := by
    intro inName
    rcases List.mem_cons.mp inName with dot | inName
    · exact .inr (.inr dot)
    · exact .inl (mem_of_mem_pieces name isPiece inName)
  rw [same, join, if_neg (by simp [relative_of_plain plain])] at member
  split at member
  · rcases List.mem_append.mp member with inDirectory | inName
    · exact mem_of_mem_directory last notHere inDirectory
    · exact ofName inName
  · rcases List.mem_append.mp member with inDirectory | inName
    · exact mem_of_mem_directory last notHere inDirectory
    · rcases List.mem_cons.mp inName with slash | inName
      · exact .inr (.inl slash)
      · exact ofName inName

end

end Cadence.Path
