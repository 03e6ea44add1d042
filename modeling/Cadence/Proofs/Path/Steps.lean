import Cadence.Proofs.Path.Names

/-!
The steps of paths that are put together and taken apart. A relative path put after another goes on with its own
steps (`Path.steps_join`), and a path that ends in a name is one step longer than its directory
(`Path.steps_directory`). So the draft of an output takes the steps of the output's directory and then one to a hidden
name (`Path.steps_draft`). An output that ends in `..` has no name to hide: its draft goes all the way of the output and
some further way, which ends in `..` again (`Path.steps_draft_of_up`).
-/

namespace Cadence.Path

/-! ## Pieces -/

theorem Step.ofPiece?_eq_none_iff {piece : Text} : ofPiece? piece = none ↔ isIdle piece = true := by
  unfold ofPiece?
  split
  · simpa
  · split <;> simp_all

theorem Step.ofPiece?_eq_name_iff {piece name : Text} :
    ofPiece? piece = some (.name name) ↔ piece = name ∧ name ≠ [] ∧ name ≠ ['.'] ∧ name ≠ ['.', '.'] := by
  unfold ofPiece?
  constructor
  · intro step
    split at step
    · contradiction
    · rename_i notIdle
      split at step
      · cases step
      · rename_i notUp
        cases step
        rw [isIdle_iff, not_or] at notIdle
        exact ⟨rfl, notIdle.1, notIdle.2, notUp⟩
  · rintro ⟨rfl, something, notHere, notUp⟩
    rw [if_neg (by simp [isIdle, something, notHere]), if_neg notUp]

theorem Step.ofPiece?_cases {piece : Text} {step : Step} (known : ofPiece? piece = some step) :
    step = .up ∨ ∃ name, step = .name name := by
  unfold ofPiece? at known
  split at known
  · contradiction
  · split at known
    · cases known
      exact .inl rfl
    · cases known
      exact .inr ⟨_, rfl⟩

theorem filterMap_idle {idle : List Text} (idles : ∀ piece ∈ idle, isIdle piece = true) :
    idle.filterMap Step.ofPiece? = [] := by
  rw [List.filterMap_eq_nil_iff]
  exact fun piece member => Step.ofPiece?_eq_none_iff.mpr (idles piece member)

theorem not_mem_beginning {path : Path} {name : Text} : Step.name name ∉ path.beginning := by
  unfold beginning
  split
  · simp
  · split <;> simp

/-! ## Paths put together -/

/-- A relative path put after a path adds its pieces, up to empty ones. -/
theorem pieces_join {directory further : Path} (some : directory.text ≠ []) (relative : further.isAbsolute = false) :
    ∃ front, front ≠ [] ∧ pieces '/' (directory.join further).text = front ++ pieces '/' further.text ∧
      (pieces '/' directory.text = front ∨ pieces '/' directory.text = front ++ [[]]) := by
  unfold join
  rw [if_neg (by simp [relative])]
  by_cases ended : directory.text.getLast? = Option.some '/'
  · obtain ⟨before, whole⟩ := List.getLast?_eq_some_iff.mp ended
    rw [if_pos (.inr ended), whole]
    refine ⟨pieces '/' before, pieces_ne_nil '/' before, ?_, .inr (pieces_append_cons '/' before [])⟩
    rw [List.append_assoc, List.singleton_append, pieces_append_cons]
  · rw [if_neg (by simp [some, ended])]
    exact ⟨pieces '/' directory.text, pieces_ne_nil '/' directory.text, pieces_append_cons '/' _ _, .inl rfl⟩

theorem steps_join {directory further : Path} (some : directory.text ≠ []) (relative : further.isAbsolute = false) :
    (directory.join further).steps = directory.steps ++ (pieces '/' further.text).filterMap Step.ofPiece? := by
  obtain ⟨front, begun, whole, before⟩ := pieces_join some relative
  have beginsHere : (directory.join further).beginsHere = directory.beginsHere := by
    obtain ⟨first, others, rfl⟩ := List.exists_cons_of_ne_nil begun
    rcases before with before | before <;> simp [Path.beginsHere, whole, before]
  have blank : Step.ofPiece? [] = none := rfl
  rw [steps, steps, beginning, beginning, isAbsolute_join relative, beginsHere, whole, List.append_assoc]
  rcases before with before | before <;> simp [before, blank]

section
variable {name : Text} (plain : '/' ∉ name) (isName : Step.ofPiece? name = some (.name name))
include plain isName

theorem steps_of_name : (Path.mk name).steps = [.name name] := by
  have notHere := (Step.ofPiece?_eq_name_iff.mp isName).2.2.1
  rw [steps, beginning, relative_of_plain plain, beginsHere, pieces_of_not_mem plain]
  simp [notHere, isName]

theorem steps_join_name {directory : Path} (some : directory.text ≠ []) :
    (directory.join ⟨name⟩).steps = directory.steps ++ [.name name] := by
  rw [steps_join some (relative_of_plain plain), pieces_of_not_mem plain]
  simp [isName]

end

theorem fileName?_join {directory : Path} (some : directory.text ≠ []) {name : Text} (plain : '/' ∉ name)
    (something : name ≠ []) (notHere : name ≠ ['.']) (notUp : name ≠ ['.', '.']) :
    (directory.join ⟨name⟩).fileName? = Option.some name := by
  rw [fileName?, steps_join_name plain (Step.ofPiece?_eq_name_iff.mpr ⟨rfl, something, notHere, notUp⟩) some,
    List.getLast?_concat]

/-! ## Paths taken apart -/

theorem pieces_of_fileName? {path : Path} {name : Text} (named : path.fileName? = some name) :
    Step.ofPiece? name = some (.name name) ∧ '/' ∉ name ∧ ∃ front blanks,
      pieces '/' path.text = front ++ name :: blanks ∧ ∀ piece ∈ blanks, isIdle piece = true := by
  have last : path.steps.getLast? = some (.name name) := by
    unfold fileName? at named
    split at named
    · cases named
      assumption
    · contradiction
  rw [steps, List.getLast?_append, List.getLast?_filterMap] at last
  rcases Option.or_eq_some_iff.mp last with found | ⟨_, begun⟩
  · obtain ⟨blanks, piece, front, reversed, isStep, idle⟩ := List.findSome?_eq_some_iff.mp found
    obtain ⟨rfl, _⟩ := Step.ofPiece?_eq_name_iff.mp isStep
    have whole : pieces '/' path.text = front.reverse ++ piece :: blanks.reverse := by
      rw [← List.reverse_reverse (pieces '/' path.text), reversed]
      simp
    have member : piece ∈ pieces '/' path.text := by simp [whole]
    refine ⟨isStep, not_mem_of_mem_pieces piece member, _, _, whole, ?_⟩
    intro other isBlank
    exact Step.ofPiece?_eq_none_iff.mp (idle other (List.mem_reverse.mp isBlank))
  · exact absurd (List.mem_of_getLast? begun) not_mem_beginning

theorem steps_directory {path : Path} {name : Text} (named : path.fileName? = some name) :
    path.steps = path.directory.steps ++ [.name name] := by
  obtain ⟨isName, _, front, blanks, whole, blank⟩ := pieces_of_fileName? named
  have something : ¬ isIdle name = true := by
    intro idle
    rw [Step.ofPiece?_eq_none_iff.mpr idle] at isName
    contradiction
  obtain ⟨before, idle, rfl, idles, ended, bare, parts⟩ := directory_of_pieces whole something blank
  have route : (pieces '/' path.text).filterMap Step.ofPiece? = before.filterMap Step.ofPiece? ++ [.name name] := by
    rw [whole, List.filterMap_append, List.filterMap_append, filterMap_idle idles, List.filterMap_cons_some isName,
      filterMap_idle blank, List.append_nil]
  cases before with
  | nil =>
    rw [bare rfl, steps, route, beginning]
    split
    · rfl
    · split <;> rfl
  | cons first rest =>
    have parts := parts (List.cons_ne_nil _ _)
    have begins : path.directory.beginning = path.beginning := by
      have absolute : path.directory.isAbsolute = path.isAbsolute := by
        rw [Bool.eq_iff_iff, isAbsolute_iff, isAbsolute_iff, parts, whole]
        cases rest with
        | nil =>
          have nonempty : first ≠ [] := by
            rintro rfl
            exact absurd (ended [] rfl) (by decide)
          simp [nonempty]
        | cons second more => simp
      simp [beginning, absolute, beginsHere, parts, whole]
    rw [steps, steps, route, begins, parts, List.append_assoc]

/-! ## Drafts -/

section
variable {output : Path} {name : Text} (named : output.fileName? = some name)
include named

/-- The draft of an output goes to a hidden name in the output's directory. -/
theorem steps_draft : output.draft.steps = output.directory.steps ++ [.name ('.' :: name)] := by
  obtain ⟨isName, plain, _⟩ := pieces_of_fileName? named
  obtain ⟨_, something, notHere, _⟩ := Step.ofPiece?_eq_name_iff.mp isName
  have hiddenPlain : '/' ∉ '.' :: name := by
    rw [List.mem_cons, not_or]
    exact ⟨by decide, plain⟩
  have isHiddenName : Step.ofPiece? ('.' :: name) = some (.name ('.' :: name)) :=
    Step.ofPiece?_eq_name_iff.mpr ⟨rfl, List.cons_ne_nil _ _, by simpa using something, by simpa using notHere⟩
  have draft : output.draft = output.directory.join ⟨'.' :: name⟩ := by
    rw [Path.draft, lastName, named, Option.getD_some, withFileName, named]
  by_cases bare : output.directory.text = []
  · have join : output.directory.join ⟨'.' :: name⟩ = ⟨'.' :: name⟩ := by
      rw [Path.join, if_neg (by simp [relative_of_plain hiddenPlain]), if_pos (.inl bare), bare, List.nil_append]
    have nowhere : output.directory.steps = [] := by
      rw [show output.directory = ⟨[]⟩ from congrArg Path.mk bare]
      rfl
    rw [draft, join, steps_of_name hiddenPlain isHiddenName, nowhere, List.nil_append]
  · rw [draft, steps_join_name hiddenPlain isHiddenName bare]

omit named in
theorem steps_draft_of_last {before : List Step} (whole : output.steps = before ++ [.name name]) :
    output.draft.steps = before ++ [.name ('.' :: name)] := by
  have named : output.fileName? = some name := by rw [fileName?, whole, List.getLast?_concat]
  rw [steps_directory named] at whole
  rw [steps_draft named, List.append_cancel_right whole]

/-- The draft ends in the name of the output with a dot before it and lies in the same directory. -/
theorem draft_beside :
    output.draft.fileName? = some ('.' :: name) ∧ output.draft.directory.isSameAsWritten output.directory = true := by
  have whole := steps_draft named
  have hidden : output.draft.fileName? = some ('.' :: name) := by
    rw [fileName?, whole, List.getLast?_concat]
  refine ⟨hidden, decide_eq_true ?_⟩
  rw [steps_directory hidden] at whole
  exact List.append_cancel_right whole

end

/-- The draft of an output that ends in `..` goes all the way of the output, then some further way, and up again. -/
theorem steps_draft_of_up {output : Path} {name : Text} (ended : output.steps.getLast? = some .up)
    (through : .name name ∈ output.steps) : ∃ more, output.draft.steps = output.steps ++ more ++ [.up] := by
  have unnamed : output.fileName? = none := by rw [fileName?, ended]
  have something : output.text ≠ [] := by
    intro blank
    rw [show output = ⟨[]⟩ from congrArg Path.mk blank] at ended
    contradiction
  obtain ⟨first, rest, cut⟩ := List.exists_cons_of_ne_nil (pieces_ne_nil '/' output.text)
  have hidden : pieces '/' ('.' :: output.text) = ('.' :: first) :: rest := pieces_cons_of_ne (by decide) cut
  have draft : output.draft.steps =
      output.steps ++ ([('.' :: first)].filterMap Step.ofPiece? ++ rest.filterMap Step.ofPiece?) := by
    rw [Path.draft, lastName, unnamed, Option.getD_none, withFileName, unnamed, steps_join something rfl, hidden,
      ← List.filterMap_append, List.singleton_append]
  have whole : output.steps = output.beginning ++ ([first].filterMap Step.ofPiece? ++ rest.filterMap Step.ofPiece?) := by
    rw [steps, cut, ← List.filterMap_append, List.singleton_append]
  -- the dot changes the first piece only, and the last `..` is another one, since a name comes before it
  obtain none | ⟨more, last, some⟩ := List.eq_nil_or_concat (rest.filterMap Step.ofPiece?)
  · rw [none, List.append_nil] at whole
    cases step : Step.ofPiece? first with
    | none =>
      rw [List.filterMap_cons_none step, List.filterMap_nil, List.append_nil] at whole
      rw [whole] at through
      exact absurd through not_mem_beginning
    | some step' =>
      rw [List.filterMap_cons_some step, List.filterMap_nil] at whole
      rw [whole, List.getLast?_concat] at ended
      obtain rfl := Option.some.inj ended
      rw [whole, List.mem_append, List.mem_singleton] at through
      exact absurd through (by simp [not_mem_beginning])
  · rw [List.concat_eq_append] at some
    rw [some, ← List.append_assoc, ← List.append_assoc] at whole draft
    rw [whole, List.getLast?_concat] at ended
    obtain rfl := Option.some.inj ended
    exact ⟨_, by rw [draft, List.append_assoc output.steps]⟩

example : (Path.mk "d/a.log/..".toList).draft = ⟨"d/a.log/../.d/a.log/..".toList⟩ := by decide

end Cadence.Path
