import Cadence.Conversion
import Cadence.Proofs.Configuration.Intervals
import Cadence.Proofs.Configuration.Segments

/-!
The jobs that options make. Each option ends up with the last value that the options give it, or with its default
(`EndsUpWith`), and a job is made of these values alone: it is made if the interval, the elapsed format and the suffix
among them are sound, and options that end up with the same values make the same job or are refused alike. A job that is
made can be run: its step is a whole number of seconds, and its suffix tells its outputs from their logs
(`Job.built_from_last_values`).
-/

namespace Cadence

open Assignment

/-- The option has this value in the end: the last one given or, where none is, the default. -/
def EndsUpWith (options : Text) (name : OptionName) (value : Text) : Prop :=
  IsLastGiven (pieces ';' options) name value ∨
    (∀ given, ¬ IsLastGiven (pieces ';' options) name given) ∧ value = Settings.defaults name

/-- The settings are read from what the options end up with. -/
structure Describes (options : Text) (settings : Settings) : Prop where
  step : ∃ interval, EndsUpWith options .interval interval ∧ Interval.read interval = .ok settings.step
  format : EndsUpWith options .elapsed settings.format.name
  suffix : EndsUpWith options .suffix settings.suffix
  something : settings.suffix ≠ []
  extension : EndsUpWith options .extension settings.extension

variable {options other command input output value : Text} {settings : Settings}

/-! ## Values -/

theorem ElapsedFormat.ofName_eq_ok_iff {format : ElapsedFormat} : ofName value = .ok format ↔ value = format.name := by
  have different : duration.name ≠ seconds.name := by decide
  unfold ofName
  constructor
  · intro named
    split at named
    · cases named
      assumption
    · split at named
      · cases named
        assumption
      · contradiction
  · rintro rfl
    cases format with
    | seconds => rw [if_pos rfl]
    | duration => rw [if_neg different, if_pos rfl]

namespace Settings

variable {assignment : Assignment}

theorem effective_eq_iff (accepted : Assignment.read options = .ok assignment) {option : OptionName} :
    effective assignment option = value ↔ EndsUpWith options option value := by
  simp only [EndsUpWith, ← read_value accepted, effective]
  cases assignment option with
  | none => simp [eq_comm]
  | some given => simp

theorem isTrimmed_suffix (suffix : EndsUpWith options .suffix value) : value.IsTrimmed := by
  rcases suffix with ⟨_, _, _, _, ⟨_, _, _, _, _, trimmed⟩, _⟩ | ⟨_, rfl⟩
  · exact trimmed
  · decide

/-- The checks of the interval, the elapsed format and the suffix are all that stands before the settings. -/
theorem ofAssignment_eq_ok_iff : ofAssignment assignment = .ok settings ↔
    Interval.read (effective assignment .interval) = .ok settings.step ∧
    effective assignment .elapsed = settings.format.name ∧ effective assignment .suffix = settings.suffix ∧
    settings.suffix ≠ [] ∧ effective assignment .extension = settings.extension := by
  unfold ofAssignment
  constructor
  · intro made
    split at made
    · contradiction
    · rename_i step accepted
      split at made
      · contradiction
      · rename_i format named
        split at made
        · contradiction
        · rename_i filled
          cases made
          exact ⟨accepted, ElapsedFormat.ofName_eq_ok_iff.mp named, rfl, by simpa using filled, rfl⟩
  · rintro ⟨accepted, named, suffix, something, extension⟩
    have filled : ¬ settings.suffix.isEmpty = true := by simpa using something
    simp only [accepted, ElapsedFormat.ofName_eq_ok_iff.mpr named, suffix, if_neg filled, extension]

theorem ofOptions_eq_ok_iff : ofOptions options = .ok settings ↔
    (∃ assignment, Assignment.read options = .ok assignment) ∧ Describes options settings := by
  unfold ofOptions
  cases accepted : Assignment.read options with
  | error fault => simp
  | ok assignment =>
    simp only [ofAssignment_eq_ok_iff, effective_eq_iff accepted, Except.ok.injEq, exists_eq', true_and]
    constructor
    · rintro ⟨step, format, suffix, something, extension⟩
      exact ⟨⟨_, (effective_eq_iff accepted).mp rfl, step⟩, format, suffix, something, extension⟩
    · rintro ⟨⟨interval, ends, step⟩, format, suffix, something, extension⟩
      rw [(effective_eq_iff accepted).mpr ends]
      exact ⟨step, format, suffix, something, extension⟩

/-- Settings are made of the values that options end up with. -/
theorem ofOptions_congr (accepted : ∃ assignment, Assignment.read options = .ok assignment)
    (acceptedOther : ∃ assignment, Assignment.read other = .ok assignment)
    (same : ∀ name value, EndsUpWith options name value ↔ EndsUpWith other name value) :
    ofOptions options = ofOptions other := by
  obtain ⟨first, accepted⟩ := accepted
  obtain ⟨second, acceptedOther⟩ := acceptedOther
  have effects : effective first = effective second := by
    funext name
    exact (effective_eq_iff accepted).mpr ((same name _).mpr ((effective_eq_iff acceptedOther).mp rfl))
  simp only [ofOptions, accepted, acceptedOther, ofAssignment, effects]

end Settings

/-! ## Jobs -/

namespace Job

variable {job : Job}

theorem ofArguments_eq_ok_iff : ofArguments command input output options = .ok job ↔
    Settings.ofOptions options = .ok job.settings ∧ job.command = command ∧ job.input = ⟨input⟩ ∧
      job.output = if output = [] then none else some ⟨output⟩ := by
  unfold ofArguments
  cases Settings.ofOptions options with
  | error fault => simp
  | ok settings =>
    obtain ⟨jobCommand, jobInput, jobOutput, jobSettings⟩ := job
    simp only [Except.ok.injEq, mk.injEq, List.isEmpty_iff]
    constructor
    · rintro ⟨rfl, rfl, rfl, rfl⟩
      exact ⟨rfl, rfl, rfl, rfl⟩
    · rintro ⟨rfl, rfl, rfl, rfl⟩
      exact ⟨rfl, rfl, rfl, rfl⟩

/-- A job is built from its arguments and from the values that its options end up with: it is built if the interval,
the elapsed format and the suffix among them pass their checks. Options that give each option the same last value build
the same job or meet the same fault. The step of a job that is built is a whole number of seconds and its suffix is
trimmed, so without an output each table goes to the path of its log with more than white space behind it. -/
theorem built_from_last_values :
    (∀ (command input output options : Text) (job : Job), ofArguments command input output options = .ok job ↔
      (∃ assignment, Assignment.read options = .ok assignment) ∧ Describes options job.settings ∧
        job.command = command ∧ job.input = ⟨input⟩ ∧ job.output = if output = [] then none else some ⟨output⟩) ∧
    (∀ command input output options : Text, (∃ job, ofArguments command input output options = .ok job) ↔
      (∃ assignment, Assignment.read options = .ok assignment) ∧
        (∃ interval step, EndsUpWith options .interval interval ∧ Interval.read interval = .ok step) ∧
        (∃ format : ElapsedFormat, EndsUpWith options .elapsed format.name) ∧
        ∃ suffix, EndsUpWith options .suffix suffix ∧ suffix ≠ []) ∧
    (∀ command input output options other : Text,
      (∃ assignment, Assignment.read options = .ok assignment) → (∃ assignment, Assignment.read other = .ok assignment) →
      (∀ name value, IsLastGiven (pieces ';' options) name value ↔ IsLastGiven (pieces ';' other) name value) →
      ofArguments command input output options = ofArguments command input output other) ∧
    ∀ (command input output options : Text) (job : Job), ofArguments command input output options = .ok job →
      (∃ seconds : Nat, 1 ≤ seconds ∧ job.settings.step.nanoseconds = seconds * nanosecondsPerSecond) ∧
      job.settings.suffix ≠ [] ∧ job.settings.suffix.IsTrimmed ∧
      (output = [] → ∀ {m : Type → Type} {Handle : Type} [Monad m] (files : FileAccess m Handle) (log : Path),
        ∃ added, outputPath files job log = pure ⟨log.text ++ added⟩ ∧ ∃ c ∈ added, Unicode.isWhiteSpace c = false) := by
  refine ⟨fun command input output options job => ?_, fun command input output options => ?_, ?_, ?_⟩
  · rw [ofArguments_eq_ok_iff, Settings.ofOptions_eq_ok_iff, and_assoc]
  · constructor
    · rintro ⟨job, built⟩
      obtain ⟨accepted, ⟨interval, ends, step⟩, format, suffix, something, _⟩ :=
        Settings.ofOptions_eq_ok_iff.mp (ofArguments_eq_ok_iff.mp built).1
      exact ⟨accepted, ⟨interval, _, ends, step⟩, ⟨_, format⟩, _, suffix, something⟩
    · rintro ⟨⟨assignment, accepted⟩, ⟨interval, step, ends, read⟩, ⟨format, named⟩, suffix, given, something⟩
      have extension : EndsUpWith options .extension (Settings.effective assignment .extension) :=
        (Settings.effective_eq_iff accepted).mp rfl
      exact ⟨⟨command, ⟨input⟩, _, ⟨step, format, suffix, _⟩⟩, ofArguments_eq_ok_iff.mpr ⟨Settings.ofOptions_eq_ok_iff.mpr
        ⟨⟨assignment, accepted⟩, ⟨interval, ends, read⟩, named, given, something, extension⟩, rfl, rfl, rfl⟩⟩
  · intro command input output options other accepted acceptedOther same
    have ends : ∀ name value, EndsUpWith options name value ↔ EndsUpWith other name value := by
      intro name value
      simp only [EndsUpWith, same]
    rw [ofArguments, ofArguments, Settings.ofOptions_congr accepted acceptedOther ends]
  · intro command input output options job built
    obtain ⟨made, _, _, aim⟩ := ofArguments_eq_ok_iff.mp built
    obtain ⟨_, ⟨interval, _, read⟩, _, suffix, something, _⟩ := Settings.ofOptions_eq_ok_iff.mp made
    obtain ⟨seconds, _, positive, _, same⟩ := Interval.read?_eq_some_iff.mp (Interval.read_eq_ok_iff.mp read)
    have trimmed := Settings.isTrimmed_suffix suffix
    refine ⟨⟨seconds, positive, same⟩, something, trimmed, ?_⟩
    rintro rfl m Handle _ files log
    refine ⟨job.settings.suffix, ?_, trimmed.exists_dark something⟩
    rw [outputPath, aim]
    rfl

/-- An interval that is none but is overridden, a blank segment and another order make no difference. -/
theorem built_from_last_values_of_two_orders :
    let options := "interval=never; ;suffix=.out;interval=5m".toList
    let other := "interval=5m;suffix = .out".toList
    ∃ job, ofArguments [] "a.log".toList [] options = .ok job ∧
      ofArguments [] "a.log".toList [] options = ofArguments [] "a.log".toList [] other ∧
      job.settings.step.nanoseconds = 300 * nanosecondsPerSecond ∧ job.settings.suffix.IsTrimmed := by
  intro options other
  obtain ⟨_, _, determined, sound⟩ := built_from_last_values
  let given := ((empty.set .interval "never".toList).set .suffix ".out".toList).set .interval "5m".toList
  let givenOther := (empty.set .interval "5m".toList).set .suffix ".out".toList
  have accepted : Assignment.read options = .ok given := rfl
  have acceptedOther : Assignment.read other = .ok givenOther := rfl
  have same : ∀ name value, IsLastGiven (pieces ';' options) name value ↔ IsLastGiven (pieces ';' other) name value := by
    intro name value
    rw [← read_value accepted, ← read_value acceptedOther]
    cases name <;> exact Iff.rfl
  let settings : Settings := ⟨⟨300 * nanosecondsPerSecond, by decide, by decide⟩, .seconds, ".out".toList, ".log".toList⟩
  have built : ofArguments [] "a.log".toList [] options = .ok ⟨[], ⟨"a.log".toList⟩, none, settings⟩ := rfl
  exact ⟨_, built, determined [] _ [] options other ⟨given, accepted⟩ ⟨givenOther, acceptedOther⟩ same, rfl,
    (sound [] _ [] options _ built).2.2.1⟩

end Job

end Cadence
