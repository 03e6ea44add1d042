import Cadence.CommandLine.Arguments
import Cadence.Proofs.Text.Pieces

/-!
The arguments that ask for a conversion: one input and at most one value for each of the options, in any order
(`Request.ofArguments_eq_convert_iff`). A value that is an argument by itself must not look like an option; behind `=` it
may be anything, and so may the input behind `--`.
-/

namespace Cadence.CommandLine

/-- An argument that does not look like an option: it has nothing behind a dash in front. -/
def IsPlain (argument : Text) : Prop := ∀ letter rest, argument ≠ '-' :: letter :: rest

theorem exists_dashed_of_not_isPlain {argument : Text} (dashed : ¬ IsPlain argument) :
    ∃ letter rest, argument = '-' :: letter :: rest := by
  simpa [IsPlain] using dashed

/-- An option as it is written, with its two dashes. -/
def Valued.written : Valued → Text
  | .output => "--output".toList
  | .options => "--options".toList

/-- The values of options with one more in front. -/
def Valued.before (option : Valued) (value : Text) (values : Valued → List Text) (other : Valued) : List Text :=
  (if other = option then [value] else []) ++ values other

/-- The arguments give these inputs and these values for each of the options, all of them in order. -/
inductive Give : List Text → List Text → (Valued → List Text) → Prop
  | nothing : Give [] [] fun _ => []
  | input {argument : Text} {rest inputs : List Text} {values : Valued → List Text} :
      IsPlain argument → Give rest inputs values → Give (argument :: rest) (argument :: inputs) values
  /-- The value of an option is the next argument. -/
  | next {option : Valued} {value : Text} {rest inputs : List Text} {values : Valued → List Text} :
      IsPlain value → Give rest inputs values →
      Give (option.written :: value :: rest) inputs (option.before value values)
  /-- The value of an option stands behind `=`. -/
  | here {option : Valued} {value : Text} {rest inputs : List Text} {values : Valued → List Text} :
      Give rest inputs values →
      Give ((option.written ++ '=' :: value) :: rest) inputs (option.before value values)
  /-- Everything behind `--` is an input. -/
  | inputs (inputs : List Text) : Give ("--".toList :: inputs) inputs fun _ => []

/-- The arguments ask for the conversion of one input, with or without an output and options. -/
def Ask (arguments : List Text) (input : Text) (output options : Option Text) : Prop :=
  ∃ values, Give arguments [input] values ∧ values .output = output.toList ∧ values .options = options.toList

/-! ## What has been given -/

theorem toList_eq_toList_iff {α : Type} (first second : Option α) : first.toList = second.toList ↔ first = second := by
  cases first <;> cases second <;> simp

@[simp] theorem two_ne_toList {α : Type} (first second : α) (rest : List α) (option : Option α) :
    first :: second :: rest ≠ option.toList := by
  cases option <;> simp

namespace Given

/-- The arguments have given one input and at most one value for each option, with these inputs and values still to
come, and `whole` is all that they give. -/
def Completes (given : Given) (inputs : List Text) (values : Valued → List Text) (whole : Given) : Prop :=
  given.input.toList ++ inputs = whole.input.toList ∧
    given.output.toList ++ values .output = whole.output.toList ∧
    given.options.toList ++ values .options = whole.options.toList

variable {given whole : Given} {inputs : List Text} {values : Valued → List Text}

theorem completes_nothing : given.Completes [] (fun _ => []) whole ↔ given = whole := by
  obtain ⟨input, output, options⟩ := given
  obtain ⟨input', output', options'⟩ := whole
  simp [Completes, toList_eq_toList_iff]

theorem completes_input (input : Text) : given.Completes (input :: inputs) values whole ↔
    ∃ after, given.withInput? input = some after ∧ after.Completes inputs values whole := by
  obtain ⟨first, output, options⟩ := given
  cases first <;> simp [Completes, withInput?]

theorem completes_value (option : Valued) (value : Text) : given.Completes inputs (option.before value values) whole ↔
    ∃ after, given.withValue? option value = some after ∧ after.Completes inputs values whole := by
  obtain ⟨input, output, options⟩ := given
  cases option with
  | output => cases output <;> simp [Completes, withValue?, Valued.before]
  | options => cases options <;> simp [Completes, withValue?, Valued.before]

theorem request_eq_convert_iff {input : Text} {output options : Option Text} :
    given.request = .convert input output options ↔ given = ⟨some input, output, options⟩ := by
  obtain ⟨first, _, _⟩ := given
  cases first <;> simp [request]

end Given

/-! ## Reading -/

/-- A name and, if there is one, a value behind `=`. -/
def assigned (name : Text) (value : Option Text) : Text := name ++ value.elim [] ('=' :: ·)

@[simp] theorem assigned_cutValue (argument : Text) : assigned (cutValue argument).1 (cutValue argument).2 = argument := by
  unfold cutValue
  cases cut : cutAtFirst '=' argument with
  | none => exact List.append_nil argument
  | some parts => exact (cutAtFirst_eq_some_iff.mp cut).1.symm

/-- What is understood as an option that takes a value is the option as it is written, with a value or not. -/
theorem Long.written_of_read {long : Text} {option : Valued} {value : Option Text}
    (read : Long.read long = .valued option value) : '-' :: '-' :: long = assigned option.written value := by
  have whole := assigned_cutValue long
  unfold Long.read at read
  generalize cutValue long = parts at read whole
  obtain ⟨name, behind⟩ := parts
  rw [← whole]
  simp only at read
  -- in the order in which the names are tried: two take a value, and no other reading is one of an option with a value
  split at read
  · next is =>
    cases read
    rw [is]
    rfl
  · split at read
    · next is =>
      cases read
      rw [is]
      rfl
    · split at read
      · cases read
      · split at read
        · cases read
        · cases read

section
variable (given : Given) (rest : List Text)

theorem readArguments_plain {argument : Text} (plain : IsPlain argument) :
    readArguments given none (argument :: rest) = match given.withInput? argument with
      | none => .misuse
      | some after => readArguments after none rest :=
  readArguments.eq_6 given argument rest (plain _ _) (fun _ => plain _ _) plain

theorem readArguments_written (option : Valued) :
    readArguments given none (option.written :: rest) = readArguments given (some option) rest := by
  cases option <;> rfl

theorem readArguments_next (option : Valued) {value : Text} (plain : IsPlain value) :
    readArguments given none (option.written :: value :: rest) = match given.withValue? option value with
      | none => .misuse
      | some after => readArguments after none rest := by
  rw [readArguments_written]
  exact readArguments.eq_5 given value rest option (plain _ _) (fun _ => plain _ _) plain

theorem readArguments_here (option : Valued) (value : Text) :
    readArguments given none ((option.written ++ '=' :: value) :: rest) = match given.withValue? option value with
      | none => .misuse
      | some after => readArguments after none rest := by
  cases option <;> rfl

theorem readArguments_dashed (letter : Char) (name : Text) : let argument := '-' :: letter :: name
    argument = "--".toList ∨ (∃ option, argument = Valued.written option) ∨
      (∃ option value, argument = Valued.written option ++ '=' :: value) ∨
      ∀ input output options, readArguments given none (argument :: rest) ≠ .convert input output options := by
  intro argument
  by_cases dash : letter = '-'
  · subst dash
    cases name with
    | nil => exact .inl rfl
    | cons c name =>
      -- a long option: only those with a value can go on
      right
      have equation := readArguments.eq_3 given none (c :: name) rest (List.cons_ne_nil _ _)
      cases read : Long.read (c :: name) with
      | valued option value =>
        have written := Long.written_of_read read
        cases value with
        | none => exact .inl ⟨option, written.trans (List.append_nil _)⟩
        | some value => exact .inr (.inl ⟨option, value, written⟩)
      | version | help | unknown =>
        rw [read] at equation
        refine .inr (.inr fun input output options asks => ?_)
        cases equation.symm.trans asks
  · -- a short option ends the reading, whatever its letter
    refine .inr (.inr (.inr fun input output options asks => ?_))
    rw [readArguments.eq_4 _ _ _ _ _ (fun is _ => dash is) dash] at asks
    simp only [Option.isSome_none, Bool.false_eq_true, if_false] at asks
    split at asks
    · cases asks
    · split at asks
      · cases asks
      · cases asks

/-- The next argument cannot be the value of an option if it looks like an option. -/
theorem readArguments_pending (option : Valued) (letter : Char) (name : Text) :
    readArguments given (some option) (('-' :: letter :: name) :: rest) = .misuse := by
  by_cases dash : letter = '-'
  · subst dash
    cases name with
    | nil => rfl
    | cons c name => rfl
  · rw [readArguments.eq_4 _ _ _ _ _ (fun is _ => dash is) dash]
    rfl

end

section
variable {input : Text} {output options : Option Text}

theorem readInputs_eq_convert_iff (inputs : List Text) : ∀ given : Given,
    readInputs given inputs = .convert input output options ↔
      given.Completes inputs (fun _ => []) ⟨some input, output, options⟩ := by
  induction inputs with
  | nil =>
    intro given
    rw [readInputs, Given.request_eq_convert_iff, Given.completes_nothing]
  | cons first rest ih =>
    intro given
    rw [readInputs, Given.completes_input]
    cases given.withInput? first with
    | none => simp
    | some after => simp [ih]

theorem readArguments_of_give {arguments inputs : List Text} {values : Valued → List Text}
    (give : Give arguments inputs values) : ∀ {given : Given},
      given.Completes inputs values ⟨some input, output, options⟩ →
        readArguments given none arguments = .convert input output options := by
  induction give with
  | nothing =>
    intro given completes
    exact Given.request_eq_convert_iff.mpr (Given.completes_nothing.mp completes)
  | input plain _ ih =>
    intro given completes
    obtain ⟨after, taken, completes⟩ := (Given.completes_input _).mp completes
    rw [readArguments_plain given _ plain, taken]
    exact ih completes
  | next plain _ ih =>
    intro given completes
    obtain ⟨after, taken, completes⟩ := (Given.completes_value _ _).mp completes
    rw [readArguments_next given _ _ plain, taken]
    exact ih completes
  | here _ ih =>
    intro given completes
    obtain ⟨after, taken, completes⟩ := (Given.completes_value _ _).mp completes
    rw [readArguments_here, taken]
    exact ih completes
  | inputs inputs =>
    intro given completes
    exact (readInputs_eq_convert_iff inputs given).mpr completes

/-- What is asked for after one more argument is asked for by the rest. -/
theorem asks_of_taken {taken : Option Given} {rest : List Text}
    (asks : (match taken with
      | none => Request.misuse
      | some after => readArguments after none rest) = .convert input output options) :
    ∃ after, taken = some after ∧ readArguments after none rest = .convert input output options := by
  cases taken with
  | none => cases asks
  | some after => exact ⟨after, rfl, asks⟩

theorem exists_give_of_readArguments : ∀ (arguments : List Text) {given : Given},
    readArguments given none arguments = .convert input output options →
      ∃ inputs values, Give arguments inputs values ∧ given.Completes inputs values ⟨some input, output, options⟩
  | [], given, asks => ⟨[], _, .nothing, Given.completes_nothing.mpr (Given.request_eq_convert_iff.mp asks)⟩
  | argument :: rest, given, asks => by
    -- by what the first argument looks like, as `Give` has it; an option alone takes the next argument with it
    by_cases plain : IsPlain argument
    · rw [readArguments_plain given rest plain] at asks
      obtain ⟨after, taken, asks⟩ := asks_of_taken asks
      obtain ⟨inputs, values, give, completes⟩ := exists_give_of_readArguments rest asks
      exact ⟨_, _, .input plain give, (Given.completes_input _).mpr ⟨after, taken, completes⟩⟩
    · obtain ⟨letter, name, rfl⟩ := exists_dashed_of_not_isPlain plain
      obtain is | ⟨option, is⟩ | ⟨option, value, is⟩ | neither := readArguments_dashed given rest letter name
      · rw [is] at asks ⊢
        exact ⟨_, _, .inputs rest, (readInputs_eq_convert_iff rest given).mp asks⟩
      · rw [is] at asks ⊢
        cases rest with
        | nil =>
          rw [readArguments_written] at asks
          cases asks
        | cons value rest =>
          by_cases plain : IsPlain value
          · rw [readArguments_next given rest option plain] at asks
            obtain ⟨after, taken, asks⟩ := asks_of_taken asks
            obtain ⟨inputs, values, give, completes⟩ := exists_give_of_readArguments rest asks
            exact ⟨_, _, .next plain give, (Given.completes_value _ _).mpr ⟨after, taken, completes⟩⟩
          · obtain ⟨letter, name, rfl⟩ := exists_dashed_of_not_isPlain plain
            rw [readArguments_written, readArguments_pending] at asks
            cases asks
      · rw [is, readArguments_here] at asks
        rw [is]
        obtain ⟨after, taken, asks⟩ := asks_of_taken asks
        obtain ⟨inputs, values, give, completes⟩ := exists_give_of_readArguments rest asks
        exact ⟨_, _, .here give, (Given.completes_value _ _).mpr ⟨after, taken, completes⟩⟩
      · exact absurd asks (neither _ _ _)

end

/-- The arguments that the program understands as asking for a conversion. -/
theorem Request.ofArguments_eq_convert_iff {arguments : List Text} {input : Text} {output options : Option Text} :
    ofArguments arguments = .convert input output options ↔ Ask arguments input output options := by
  constructor
  · intro asks
    obtain ⟨inputs, values, give, is, toOutput, toOptions⟩ := exists_give_of_readArguments arguments asks
    cases is
    exact ⟨values, give, toOutput, toOptions⟩
  · rintro ⟨values, give, toOutput, toOptions⟩
    exact readArguments_of_give give ⟨rfl, toOutput, toOptions⟩

end Cadence.CommandLine
