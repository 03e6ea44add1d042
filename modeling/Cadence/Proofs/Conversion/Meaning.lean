import Cadence.Proofs.Csv.RoundTrip
import Cadence.Proofs.Sampling.Marks
import Cadence.Proofs.Sampling.Schedule
import Cadence.Proofs.Sampling.Stamps
import Cadence.Proofs.Text.UniversalNewlines

/-!
What a conversion means, from the bytes of the log to the bytes of the table. The lines of the decoded log
that carry a stamp and a height are its markings (`AreMarkings`). They are read up to the first one whose
stamp names no real time (`AreSamples`); of the samples read, those that the rule of the schedule selects
become records behind the header. The conversion writes these records and nothing else, and it ends with
their number, or with the number and the stamp of the marking that it could not read
(`Settings.conversion_means`).
-/

namespace Cadence

/-! ## What a log says -/

/-- The lines that carry a stamp and a height, in order and with their numbers, which count from 1. -/
def AreMarkings (lines : List Text) (all : List (Nat × Marked)) : Prop :=
  (all.map Prod.fst).Pairwise (· < ·) ∧ ∀ number marked, (number, marked) ∈ all ↔
    ∃ i line, lines[i]? = some line ∧ number = i + 1 ∧ Marked.Carries line marked

/-- The stamp names a real date and time. -/
def IsReal (stamp : Text) : Prop :=
  ∃ time : Timestamp, time.IsWhole ∧ time.stamp = stamp

/-- The samples that these markings are: the same texts, and the time that the stamp names. -/
def AreSamples (read : List (Nat × Marked)) (samples : List Sample) : Prop :=
  samples.length = read.length ∧ ∀ pair ∈ read.zip samples, pair.2.stamp = pair.1.2.stamp ∧
    pair.2.height = pair.1.2.height ∧ pair.2.time.IsWhole ∧ pair.2.time.stamp = pair.1.2.stamp

/-- A sample as a row, with the time since `start`. -/
def Row.ofSample (start : Timestamp) (sample : Sample) : Row :=
  ⟨sample.stamp, sample.time.since start, sample.height⟩

/-- Samples as rows, with the time since the first of them. -/
def rowsSinceFirst : List Sample → List Row
  | [] => []
  | first :: rest => (first :: rest).map (Row.ofSample first.time)

/-! ## Markings and samples -/

/-- The markings among lines, `behind` of which come before. -/
def markings (behind : Nat) : List Text → List (Nat × Marked)
  | [] => []
  | line :: rest => match Marked.ofLine? line with
    | none => markings (behind + 1) rest
    | some marked => (behind + 1, marked) :: markings (behind + 1) rest

theorem mem_markings_iff (lines : List Text) : ∀ (behind : Nat) {number : Nat} {marked : Marked},
    (number, marked) ∈ markings behind lines ↔
      ∃ i line, lines[i]? = some line ∧ number = behind + i + 1 ∧ Marked.Carries line marked := by
  induction lines with
  | nil => intro behind number marked; simp [markings]
  | cons line rest ih =>
    intro behind number marked
    have split : (∃ i other, (line :: rest)[i]? = some other ∧ number = behind + i + 1 ∧ Marked.Carries other marked) ↔
        (number = behind + 1 ∧ Marked.ofLine? line = some marked) ∨ (number, marked) ∈ markings (behind + 1) rest := by
      rw [ih, Marked.ofLine?_eq_some_iff]
      constructor
      · rintro ⟨i, other, inside, counted, carries⟩
        cases i with
        | zero =>
          obtain rfl := Option.some.inj inside
          exact .inl ⟨counted, carries⟩
        | succ i => exact .inr ⟨i, other, inside, by omega, carries⟩
      · rintro (⟨counted, carries⟩ | ⟨i, other, inside, counted, carries⟩)
        · exact ⟨0, line, rfl, counted, carries⟩
        · exact ⟨i + 1, other, inside, by omega, carries⟩
    rw [split, markings]
    cases Marked.ofLine? line with
    | none => simp
    | some found => simp [eq_comm]

theorem markings_increasing (lines : List Text) : ∀ behind : Nat,
    ((markings behind lines).map Prod.fst).Pairwise (· < ·) := by
  induction lines with
  | nil => intro behind; exact .nil
  | cons line rest ih =>
    intro behind
    rw [markings]
    cases Marked.ofLine? line with
    | none => exact ih (behind + 1)
    | some marked =>
      refine List.pairwise_cons.mpr ⟨?_, ih (behind + 1)⟩
      intro number member
      obtain ⟨⟨_, other⟩, inside, rfl⟩ := List.mem_map.mp member
      obtain ⟨i, _, _, counted, _⟩ := (mem_markings_iff rest _).mp inside
      show behind + 1 < _
      omega

theorem areMarkings_markings (lines : List Text) : AreMarkings lines (markings 0 lines) := by
  refine ⟨markings_increasing lines 0, ?_⟩
  intro number marked
  simpa using mem_markings_iff lines 0

/-- The samples up to the first marking that is none, and that marking. -/
def samplesOf : List (Nat × Marked) → List Sample × Option (Nat × Marked)
  | [] => ([], none)
  | (number, marked) :: rest => match Timestamp.ofStamp? marked.stamp with
    | none => ([], some (number, marked))
    | some time => (⟨marked.stamp, time, marked.height⟩ :: (samplesOf rest).1, (samplesOf rest).2)

theorem isReal_iff {stamp : Text} : IsReal stamp ↔ Timestamp.ofStamp? stamp ≠ none := by
  constructor
  · rintro ⟨time, whole, written⟩ unread
    rw [Timestamp.ofStamp?_eq_some_iff.mpr ⟨written, whole⟩] at unread
    contradiction
  · intro readable
    obtain ⟨time, read⟩ := Option.ne_none_iff_exists'.mp readable
    obtain ⟨written, whole⟩ := Timestamp.ofStamp?_eq_some_iff.mp read
    exact ⟨time, whole, written⟩

/-- The markings read, and those left over, which begin with one that is not real. -/
theorem samplesOf_spec (all : List (Nat × Marked)) : ∃ read unread, all = read ++ unread ∧
    AreSamples read (samplesOf all).1 ∧ (samplesOf all).2 = unread.head? ∧
    ∀ first, unread.head? = some first → ¬ IsReal first.2.stamp := by
  induction all with
  | nil => exact ⟨[], [], rfl, ⟨rfl, by simp⟩, rfl, by simp⟩
  | cons marking rest ih =>
    obtain ⟨number, marked⟩ := marking
    rw [samplesOf]
    cases named : Timestamp.ofStamp? marked.stamp with
    | none =>
      refine ⟨[], (number, marked) :: rest, rfl, ⟨rfl, by simp⟩, rfl, ?_⟩
      rintro first ⟨⟩ real
      exact isReal_iff.mp real named
    | some time =>
      obtain ⟨read, unread, rfl, ⟨same, reads⟩, next, unreal⟩ := ih
      obtain ⟨written, whole⟩ := Timestamp.ofStamp?_eq_some_iff.mp named
      refine ⟨(number, marked) :: read, unread, rfl, ⟨by simp [same], ?_⟩, next, unreal⟩
      intro pair member
      rcases List.mem_cons.mp member with rfl | member
      · exact ⟨rfl, rfl, whole, written⟩
      · exact reads pair member

/-! ## Rows -/

/-- Samples as rows, with the time since `start`, or since the first of them. -/
def rowsSince (start : Option Timestamp) : List Sample → List Row
  | [] => []
  | sample :: rest =>
    Row.ofSample (start.getD sample.time) sample :: rowsSince (some (start.getD sample.time)) rest

@[simp] theorem rowsSince_some (start : Timestamp) (samples : List Sample) :
    rowsSince (some start) samples = samples.map (Row.ofSample start) := by
  induction samples with
  | nil => rfl
  | cons sample rest ih => rw [rowsSince, Option.getD_some, ih, List.map_cons]

@[simp] theorem rowsSince_none (samples : List Sample) : rowsSince none samples = rowsSinceFirst samples := by
  cases samples with
  | nil => rfl
  | cons first rest => rw [rowsSince, Option.getD_none, rowsSince_some, rowsSinceFirst, List.map_cons]

/-- The failure of a marking that could not be read. -/
def failureOf (unreal : Option (Nat × Marked)) : Option Failure :=
  unreal.map fun marking => .badTimestamp marking.1 marking.2.stamp

/-- A pass over lines that can be read gives the rows that the schedule selects, up to the first marking that
is not real. -/
theorem rowsOf_lines (log : Path) {step : Span} (positive : 0 < step.nanoseconds) (lines : List Text) :
    ∀ (pacer : Pacer) {count : Nat} (behind : Nat), pacer.Keeps step count →
    Pass.rowsOf log pacer behind (lines.map .ok) =
      Csv.rowReads
        (picked (rowsSince pacer.start (samplesOf (markings behind lines)).1)
          (select step count ((rowsSince pacer.start (samplesOf (markings behind lines)).1).map Row.elapsed)))
        (failureOf (samplesOf (markings behind lines)).2) := by
  induction lines with
  | nil => intro pacer count behind keeps; rfl
  | cons line rest ih =>
    intro pacer count behind keeps
    rw [List.map_cons, Pass.rowsOf, markings, Sample.ofLine]
    cases Marked.ofLine? line with
    | none => exact ih pacer (behind + 1) keeps
    | some marked =>
      simp only [samplesOf]
      cases Timestamp.ofStamp? marked.stamp with
      | none => rfl
      | some time =>
        simp only [rowsSince, List.map_cons, select]
        by_cases due : count * step.nanoseconds ≤ (time.since (pacer.start.getD time)).nanoseconds
        · obtain ⟨after, taken, started, keepsAfter⟩ :=
            Pacer.offer_of_due ⟨marked.stamp, time, marked.height⟩ keeps positive rfl due
          have inner := ih after (behind + 1) keepsAfter
          rw [started] at inner
          rw [if_pos (by exact due), taken]
          simp only
          rw [inner]
          cases (samplesOf (markings (behind + 1) rest)).2 <;> rfl
        · have held := Pacer.offer_of_early ⟨marked.stamp, time, marked.height⟩ keeps rfl due
          have inner := ih { pacer with start := some (pacer.start.getD time) } (behind + 1) keeps
          rw [if_neg (by exact due), held]
          exact inner

/-! ## Conversions -/

theorem Settings.convertLines_of_rows {settings : Settings} {log target : Path} {lines : List LineRead}
    {rows : List Row} {failure : Option Failure}
    (reads : Pass.rowsOf log (Pacer.new settings.step) 0 lines = Csv.rowReads rows failure) :
    settings.convertLines log target lines .unlimited =
      (Csv.ending rows failure, { Csv.Sink.unlimited with taken := Csv.encoded settings.format rows }) := by
  rw [convertLines, reads, Csv.writeTable_unlimited]

theorem Settings.convertLines_of_error (settings : Settings) (log target : Path) (cause : IoError) :
    settings.convertLines log target (linesRead (.error cause)) .unlimited =
      (.error (.io log cause), { Csv.Sink.unlimited with taken := Csv.encoded settings.format [] }) := by
  have reads : Pass.rowsOf log (Pacer.new settings.step) 0 (linesRead (.error cause)) =
      Csv.rowReads [] (some (.io log cause)) := rfl
  rw [convertLines_of_rows reads]
  rfl

/-- What the conversion of a log gives and writes: each marking up to the first one that is not real is a sample,
each sample that the schedule selects is a record behind the header, and the outcome is the number of these
records, or the number and the stamp of the marking that is not real. -/
def Settings.Means (settings : Settings) (bytes : Bytes) (outcome : Except Failure Nat) (written : Bytes) : Prop :=
  ∃ all read samples selected,
    AreMarkings (Text.lines (Utf8.decode bytes)) all ∧ read <+: all ∧ AreSamples read samples ∧
    IsSelection settings.step 0 ((rowsSinceFirst samples).map Row.elapsed) selected ∧
    let records := Row.header :: (picked (rowsSinceFirst samples) selected).map (·.fields settings.format)
    written = records.flatMap Csv.record ∧ Csv.read? written = some records ∧
    ((read = all ∧ outcome = .ok (selected.count true)) ∨
      ∃ number marked rest, all = read ++ (number, marked) :: rest ∧ ¬ IsReal marked.stamp ∧
        outcome = .error (.badTimestamp number marked.stamp))

theorem Settings.means_of_step_pos {settings : Settings} (positive : 0 < settings.step.nanoseconds)
    (log target : Path) (bytes : Bytes) : ∃ outcome written,
      settings.convertLines log target (linesRead (.ok bytes)) .unlimited =
        (outcome, { Csv.Sink.unlimited with taken := written }) ∧ settings.Means bytes outcome written := by
  obtain ⟨read, unread, whole, samples, next, unreal⟩ := samplesOf_spec (markings 0 (Text.lines (Utf8.decode bytes)))
  have rows := rowsOf_lines log positive (Text.lines (Utf8.decode bytes)) _ 0 (Pacer.new_keeps settings.step)
  rw [show (Pacer.new settings.step).start = none from rfl, rowsSince_none, next] at rows
  have selection : IsSelection settings.step 0 ((rowsSinceFirst (samplesOf (markings 0
      (Text.lines (Utf8.decode bytes)))).1).map Row.elapsed) _ := (isSelection_iff _).mpr rfl
  rw [linesRead, Lines.ofBytes_eq_lines, convertLines_of_rows rows]
  refine ⟨_, _, rfl, _, read, _, _, areMarkings_markings _, ⟨unread, whole.symm⟩, samples, selection, rfl,
    Csv.read?_encoded _ _, ?_⟩
  cases unread with
  | nil =>
    left
    refine ⟨by simpa using whole.symm, ?_⟩
    rw [List.head?_nil, failureOf, Option.map_none, Csv.ending,
      length_picked _ (by rw [selection.1, List.length_map])]
  | cons first rest =>
    right
    exact ⟨first.1, first.2, rest, whole, unreal first rfl, rfl⟩

theorem Settings.Means.outcome_cases {settings : Settings} {bytes written : Bytes} {outcome : Except Failure Nat}
    (means : settings.Means bytes outcome written) :
    (∃ count, outcome = .ok count) ∨ ∃ number stamp, outcome = .error (.badTimestamp number stamp) := by
  obtain ⟨_, _, _, _, _, _, _, _, _, _, ⟨_, counted⟩ | ⟨number, marked, _, _, _, ends⟩⟩ := means
  · exact .inl ⟨_, counted⟩
  · exact .inr ⟨number, marked.stamp, ends⟩

/-- A conversion under accepted options gives and writes what the log means. -/
theorem Settings.conversion_means (options : Text) (settings : Settings)
    (accepted : ofOptions options = .ok settings) (log target : Path) (bytes : Bytes) :
    let (outcome, sink) := settings.convertLines log target (linesRead (.ok bytes)) .unlimited
    settings.Means bytes outcome sink.taken := by
  obtain ⟨outcome, written, converted, means⟩ :=
    means_of_step_pos (step_pos_of_ofOptions accepted) log target bytes
  rw [converted]
  exact means

/-- Three lines an hour apart, sampled every two hours. -/
theorem Settings.conversion_means_every_two_hours : ∃ settings : Settings,
    ofOptions "interval=2h; elapsed=duration".toList = .ok settings ∧
    let bytes := Utf8.encode
      "2018-08-13 02:00:00 height=1 v\n2018-08-13 03:00:00 height=2 v\n2018-08-13 04:00:00 height=3 v\n".toList
    let (outcome, sink) := settings.convertLines ⟨"a.log".toList⟩ ⟨".a.log.csv".toList⟩ (linesRead (.ok bytes)) .unlimited
    settings.Means bytes outcome sink.taken :=
  ⟨⟨⟨7200 * nanosecondsPerSecond, by decide, by decide⟩, .duration, ".csv".toList, ".log".toList⟩, rfl,
    conversion_means "interval=2h; elapsed=duration".toList _ rfl _ _ _⟩

end Cadence
