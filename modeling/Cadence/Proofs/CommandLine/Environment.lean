import Cadence.CommandLine.Environment
import Cadence.Proofs.Text.Pieces

/-!
What a file adds to the environment. A variable keeps the value that it has; else it takes the value of its first
assignment in the file (`Environment.load_cases`). There is no environment after a file that assigns a NUL so.
-/

namespace Cadence.CommandLine

namespace Environment

/-- What a file assigns, up to its first line that is malformed. Each value is written with the variables as they are
when its line is read. -/
def assignments (environment : Environment) : List Bytes → List (Text × Text)
  | [] => []
  | stretch :: rest => match Utf8.decode? stretch with
    | none => []
    | some line => match EnvironmentLine.read environment line with
      | .malformed => []
      | .blank => assignments environment rest
      | .sets name value => (name, value) :: assignments (environment.offer name value) rest

/-- The value of a variable when a file is to be added: the one that it has, or else that of its first assignment. -/
def settled? (environment : Environment) (stretches : List Bytes) (name : Text) : Option Text :=
  (environment.value? name).or ((environment.assignments stretches).lookup name)

/-- The file would set a variable, which is not set yet, to a value that no variable can have. -/
def SetsNul (environment : Environment) (stretches : List Bytes) : Prop :=
  ∃ name value, environment.value? name = none ∧ (environment.assignments stretches).lookup name = some value ∧
    '\x00' ∈ value

/-! ## Single variables -/

/-- A name that a line can set. -/
def IsName (name : Text) : Prop := name ≠ [] ∧ '=' ∉ name

variable {environment : Environment}

/-- An entry is that of a variable if it has its name, since names have no equals signs in them. -/
theorem isPrefixOf?_entryText {name other : Text} (named : IsName name) (otherNamed : IsName other) (value : Text) :
    (other ++ ['=']).isPrefixOf? (entryText (name, value)) = if other = name then some value else none := by
  by_cases same : other = name
  · subst same
    rw [if_pos rfl, isPrefixOf?_eq_some_iff, List.append_assoc]
    rfl
  · rw [if_neg same, Option.eq_none_iff_forall_ne_some]
    intro rest found
    have whole := (isPrefixOf?_eq_some_iff _).mp found
    rw [List.append_assoc] at whole
    have cut := cutAtFirst_eq_some_iff.mpr ⟨whole, otherNamed.2⟩
    cases cut.symm.trans (cutAtFirst_eq_some_iff.mpr ⟨rfl, named.2⟩)
    exact same rfl

theorem value?_snoc {name other : Text} (named : IsName name) (otherNamed : IsName other) (value : Text) :
    value? (environment ++ [(name, value)]) other =
      (environment.value? other).or (if other = name then some value else none) := by
  rw [value?, value?, if_neg otherNamed.1, if_neg otherNamed.1, List.findSome?_append, List.findSome?_singleton,
    isPrefixOf?_entryText named otherNamed]

theorem value?_offer {name other : Text} (named : IsName name) (otherNamed : IsName other) (value : Text) :
    (environment.offer name value).value? other =
      (environment.value? other).or (if other = name then some value else none) := by
  unfold offer
  by_cases isSet : (environment.value? name).isSome
  · rw [if_pos isSet]
    by_cases same : other = name
    · subst same
      obtain ⟨old, has⟩ := Option.isSome_iff_exists.mp isSet
      rw [has, Option.some_or]
    · rw [if_neg same, Option.or_none]
  · rw [if_neg isSet, value?_snoc named otherNamed]

theorem isName_of_takeName? {text name rest : Text} (taken : takeName? text = some (name, rest)) : IsName name := by
  cases text with
  | nil => cases taken
  | cons c text =>
    simp only [takeName?] at taken
    split at taken
    · next starts =>
      cases taken
      have inside : isNameChar c = true := by
        simp only [isNameStart, isNameChar, Char.isAlphanum, Bool.or_eq_true] at starts ⊢
        grind
      refine ⟨by simp [inside], fun member => ?_⟩
      have named : isNameChar '=' = true := List.all_eq_true.mp List.all_takeWhile _ member
      exact absurd named (by decide)
    · cases taken

theorem isName_of_takeTarget? {line name rest : Text} (taken : takeTarget? line = some (name, rest)) : IsName name := by
  unfold takeTarget? at taken
  split at taken
  · cases taken
  · next first =>
    cases taken
    exact isName_of_takeName? first
  · split at taken
    · split at taken
      · next second =>
        cases taken
        exact isName_of_takeName? second
      · cases taken
    · cases taken

theorem isName_of_read {line name value : Text} (sets : EnvironmentLine.read environment line = .sets name value) :
    IsName name := by
  unfold EnvironmentLine.read at sets
  simp only at sets
  split at sets
  · cases sets
  · split at sets
    · cases sets
    · next target =>
      have named := isName_of_takeTarget? target
      split at sets
      · cases sets
        exact named
      · split at sets
        · cases sets
        · cases sets
          exact named

/-! ## The whole file -/

/-- All that the first line can come to: reading ends with it, it assigns nothing, or it assigns a value, which is an
end if the variable is not set yet and cannot have it. -/
theorem load_cons_cases (environment : Environment) (stretch : Bytes) (rest : List Bytes) :
    (environment.assignments (stretch :: rest) = [] ∧ environment.load (stretch :: rest) = some environment) ∨
    (environment.assignments (stretch :: rest) = environment.assignments rest ∧
      environment.load (stretch :: rest) = environment.load rest) ∨
    ∃ name value, IsName name ∧
      environment.assignments (stretch :: rest) = (name, value) :: (environment.offer name value).assignments rest ∧
      environment.load (stretch :: rest) =
        if environment.value? name = none ∧ '\x00' ∈ value then none else (environment.offer name value).load rest := by
  rw [assignments, load]
  cases Utf8.decode? stretch with
  | none => exact .inl ⟨rfl, rfl⟩
  | some line =>
    simp only
    cases read : EnvironmentLine.read environment line with
    | malformed => exact .inl ⟨rfl, rfl⟩
    | blank => exact .inr (.inl ⟨rfl, rfl⟩)
    | sets name value =>
      refine .inr (.inr ⟨name, value, isName_of_read read, rfl, ?_⟩)
      simp only [offer]
      cases environment.value? name with
      | none => simp
      | some old => simp

theorem lookup_assignment (name other value : Text) (others : List (Text × Text)) :
    ((name, value) :: others).lookup other = (if other = name then some value else none).or (others.lookup other) := by
  rw [List.lookup_cons]
  by_cases same : other = name
  · simp [same]
  · rw [beq_false_of_ne same, if_neg same, Option.none_or]

theorem isName_of_assigned (stretches : List Bytes) : ∀ {environment : Environment} {name value : Text},
    (environment.assignments stretches).lookup name = some value → IsName name := by
  induction stretches with
  | nil => intro environment name value assigned; cases assigned
  | cons stretch rest ih =>
    intro environment name value assigned
    obtain ⟨nothing, _⟩ | ⟨same, _⟩ | ⟨first, firstValue, named, more, _⟩ := load_cons_cases environment stretch rest
    · rw [nothing] at assigned
      cases assigned
    · rw [same] at assigned
      exact ih assigned
    · rw [more, lookup_assignment] at assigned
      by_cases is : name = first
      · rwa [is]
      · rw [if_neg is, Option.none_or] at assigned
        exact ih assigned

/-- A file sets a NUL in its first line, or in the rest with the variable of the first line set. -/
theorem setsNul_cons_iff {stretch : Bytes} {rest : List Bytes} {name value : Text} (named : IsName name)
    (more : environment.assignments (stretch :: rest) = (name, value) :: (environment.offer name value).assignments rest) :
    environment.SetsNul (stretch :: rest) ↔
      (environment.value? name = none ∧ '\x00' ∈ value) ∨ (environment.offer name value).SetsNul rest := by
  constructor
  · rintro ⟨other, otherValue, unset, assigned, nul⟩
    have otherNamed := isName_of_assigned _ assigned
    rw [more, lookup_assignment] at assigned
    by_cases same : other = name
    · subst same
      rw [if_pos rfl, Option.some_or] at assigned
      cases assigned
      exact .inl ⟨unset, nul⟩
    · rw [if_neg same, Option.none_or] at assigned
      refine .inr ⟨other, otherValue, ?_, assigned, nul⟩
      rw [value?_offer named otherNamed, unset, if_neg same, Option.none_or]
  · rintro (⟨unset, nul⟩ | ⟨other, otherValue, unset, assigned, nul⟩)
    · refine ⟨name, value, unset, ?_, nul⟩
      rw [more, lookup_assignment, if_pos rfl, Option.some_or]
    · rw [value?_offer named (isName_of_assigned _ assigned), Option.or_eq_none_iff] at unset
      refine ⟨other, otherValue, unset.1, ?_, nul⟩
      rw [more, lookup_assignment, unset.2, Option.none_or]
      exact assigned

/-- All that can come of a file: there are no variables after it if it sets a NUL, and else each has settled. -/
theorem load_cases (stretches : List Bytes) : ∀ environment : Environment,
    (environment.SetsNul stretches ∧ environment.load stretches = none) ∨
      ∃ loaded, ¬ environment.SetsNul stretches ∧ environment.load stretches = some loaded ∧
        ∀ name, IsName name → loaded.value? name = environment.settled? stretches name := by
  induction stretches with
  | nil =>
    intro environment
    refine .inr ⟨environment, ?_, rfl, fun name _ => Option.or_none.symm⟩
    rintro ⟨_, _, _, assigned, _⟩
    cases assigned
  | cons stretch rest ih =>
    intro environment
    obtain ⟨nothing, ends⟩ | ⟨same, goesOn⟩ | ⟨name, value, named, more, goesOn⟩ := load_cons_cases environment stretch rest
    · refine .inr ⟨environment, ?_, ends, fun name _ => ?_⟩
      · rintro ⟨_, _, _, assigned, _⟩
        rw [nothing] at assigned
        cases assigned
      · rw [settled?, nothing]
        exact Option.or_none.symm
    · simp only [SetsNul, settled?, same, goesOn]
      exact ih environment
    · -- with the first variable set, the rest settles the others as the whole file does
      have settles : ∀ other, IsName other →
          (environment.offer name value).settled? rest other = environment.settled? (stretch :: rest) other := by
        intro other otherNamed
        rw [settled?, settled?, value?_offer named otherNamed, more, lookup_assignment, Option.or_assoc]
      rw [goesOn, setsNul_cons_iff named more]
      by_cases nul : environment.value? name = none ∧ '\x00' ∈ value
      · exact .inl ⟨.inl nul, if_pos nul⟩
      · rw [if_neg nul]
        obtain ⟨sets, ends⟩ | ⟨loaded, spares, loads, settled⟩ := ih (environment.offer name value)
        · exact .inl ⟨.inr sets, ends⟩
        · refine .inr ⟨loaded, not_or.mpr ⟨nul, spares⟩, loads, fun other otherNamed => ?_⟩
          rw [settled other otherNamed, settles other otherNamed]

end Environment

end Cadence.CommandLine
