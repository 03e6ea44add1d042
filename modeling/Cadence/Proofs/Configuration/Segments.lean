import Cadence.Options
import Cadence.Proofs.Text.Pieces
import Cadence.Proofs.Text.Trimming

/-!
What the segments of options say. A segment gives an option a value (`Assignment.Gives`), is at fault
(`Assignment.IsFaulty`) or is blank. Of several faults the first is reported and of several values the last counts
(`addSegments_eq_error_iff`, `addSegments_value`), so options with more options behind them are read as both by
themselves, the later values in place of the earlier; and values that are written as segments, in any order and
with white space around them, are read back (`Assignment.read_merges`).
-/

namespace Cadence

theorem OptionName.ofText?_eq_some_iff {written : Text} {name : OptionName} :
    ofText? written = some name ↔ written = name.text := by
  constructor
  · intro found
    have named := List.find?_some found
    exact (of_decide_eq_true named).symm
  · rintro rfl
    cases name <;> rfl

theorem OptionName.ofText?_eq_none_iff {written : Text} :
    ofText? written = none ↔ ∀ name : OptionName, written ≠ name.text := by
  rw [Option.eq_none_iff_forall_ne_some]
  exact forall_congr' fun name => not_congr ofText?_eq_some_iff

theorem OptionName.text_plain (name : OptionName) : name.text.IsTrimmed ∧ '=' ∉ name.text ∧ ';' ∉ name.text := by
  cases name <;> exact ⟨by decide, by decide, by decide⟩

namespace Assignment

/-! ## Single segments -/

/-- The segment gives the option this value: it is the name of the option, an equals sign and the value, with white
space around the name and around the value. -/
def Gives (segment : Text) (name : OptionName) (value : Text) : Prop :=
  ∃ key rest : Text, segment = key ++ '=' :: rest ∧ key.IsPadded name.text ∧ rest.IsPadded value ∧ value.IsTrimmed

/-- What is wrong with a segment that is not blank. -/
inductive IsFaulty : Text → SettingsFault → Prop
  | missingEquals {segment : Text} : segment.isBlank = false → '=' ∉ segment → IsFaulty segment (.missingEquals segment)
  | unknownOption {key value : Text} : '=' ∉ key → (∀ name : OptionName, key.trim ≠ name.text) →
      IsFaulty (key ++ '=' :: value) (.unknownOption key.trim)

variable {segment : Text} {name : OptionName} {value : Text} {fault : SettingsFault}

theorem isBlank_of_equals (key rest : Text) : Text.isBlank (key ++ '=' :: rest) = false := by
  rw [Bool.eq_false_iff]
  intro blank
  exact Text.not_mem_of_isBlank blank (by decide) (List.mem_append_right key List.mem_cons_self)

theorem not_mem_key {key : Text} (padded : key.IsPadded name.text) : '=' ∉ key := by
  obtain ⟨front, back, blankFront, blankBack, rfl⟩ := padded
  have frontPlain := Text.not_mem_of_isBlank (c := '=') blankFront (by decide)
  have backPlain := Text.not_mem_of_isBlank (c := '=') blankBack (by decide)
  simp [frontPlain, backPlain, name.text_plain.2.1]

theorem readSegment_eq_ok_iff : readSegment segment = .ok (name, value) ↔ Gives segment name value := by
  unfold readSegment
  constructor
  · intro read
    split at read
    · contradiction
    · rename_i key rest cut
      obtain ⟨whole, _⟩ := cutAtFirst_eq_some_iff.mp cut
      split at read
      · contradiction
      · rename_i found
        cases read
        have named := OptionName.ofText?_eq_some_iff.mp found
        exact ⟨key, rest, whole, named ▸ Text.isPadded_trim key, Text.isPadded_trim rest, Text.isTrimmed_trim rest⟩
  · rintro ⟨key, rest, whole, padded, paddedValue, trimmed⟩
    rw [cutAtFirst_eq_some_iff.mpr ⟨whole, not_mem_key padded⟩]
    simp only [Text.trim_of_isPadded name.text_plain.1 padded, OptionName.ofText?_eq_some_iff.mpr rfl,
      Text.trim_of_isPadded trimmed paddedValue]

theorem readSegment_eq_error_iff (filled : segment.isBlank = false) :
    readSegment segment = .error fault ↔ IsFaulty segment fault := by
  unfold readSegment
  constructor
  · intro read
    split at read
    · rename_i cut
      cases read
      refine .missingEquals filled fun member => ?_
      obtain ⟨key, rest, whole, plain⟩ := List.eq_append_cons_of_mem member
      rw [cutAtFirst_eq_some_iff.mpr ⟨whole, plain⟩] at cut
      contradiction
    · rename_i key rest cut
      obtain ⟨rfl, plain⟩ := cutAtFirst_eq_some_iff.mp cut
      split at read
      · rename_i unknown
        cases read
        exact .unknownOption plain (OptionName.ofText?_eq_none_iff.mp unknown)
      · contradiction
  · rintro (⟨_, missing⟩ | ⟨plain, unknown⟩)
    · have uncut : cutAtFirst '=' segment = none := by
        rw [Option.eq_none_iff_forall_ne_some]
        rintro ⟨key, rest⟩ cut
        obtain ⟨rfl, _⟩ := cutAtFirst_eq_some_iff.mp cut
        exact missing (by simp)
      rw [uncut]
    · rw [cutAtFirst_eq_some_iff.mpr ⟨rfl, plain⟩]
      simp only [OptionName.ofText?_eq_none_iff.mpr unknown]

/-- What adding a segment comes to: nothing if it is blank, a value or a fault. -/
theorem addSegment_cases (segment : Text) :
    (segment.isBlank = true ∧ ∀ start : Assignment, start.addSegment segment = .ok start) ∨
    (∃ name value, Gives segment name value ∧ ∀ start : Assignment, start.addSegment segment = .ok (start.set name value)) ∨
    ∃ fault, IsFaulty segment fault ∧ ∀ start : Assignment, start.addSegment segment = .error fault := by
  by_cases blank : segment.isBlank = true
  · exact .inl ⟨blank, fun start => by rw [addSegment, if_pos blank]⟩
  · cases read : readSegment segment with
    | error fault =>
      refine .inr (.inr ⟨fault, (readSegment_eq_error_iff (by simpa using blank)).mp read, fun start => ?_⟩)
      rw [addSegment, if_neg blank, read]
    | ok given =>
      obtain ⟨name, value⟩ := given
      refine .inr (.inl ⟨name, value, readSegment_eq_ok_iff.mp read, fun start => ?_⟩)
      rw [addSegment, if_neg blank, read]

theorem addSegment_of_gives (gives : Gives segment name value) (start : Assignment) :
    start.addSegment segment = .ok (start.set name value) := by
  obtain ⟨key, rest, whole, _⟩ := id gives
  rw [addSegment, if_neg (by simp [whole, isBlank_of_equals]), readSegment_eq_ok_iff.mpr gives]

theorem addSegment_of_isFaulty (faulty : IsFaulty segment fault) (start : Assignment) :
    start.addSegment segment = .error fault := by
  have filled : segment.isBlank = false := by
    cases faulty with
    | missingEquals filled _ => exact filled
    | unknownOption _ _ => exact isBlank_of_equals _ _
  rw [addSegment, if_neg (by simp [filled]), (readSegment_eq_error_iff filled).mpr faulty]

theorem addSegment_of_isBlank (blank : segment.isBlank = true) (start : Assignment) :
    start.addSegment segment = .ok start := if_pos blank

theorem Gives.unique {other : OptionName} {second : Text} (first : Gives segment name value)
    (gives : Gives segment other second) : name = other ∧ value = second := by
  have same := (readSegment_eq_ok_iff.mpr first).symm.trans (readSegment_eq_ok_iff.mpr gives)
  cases same
  exact ⟨rfl, rfl⟩

theorem IsFaulty.not_gives (faulty : IsFaulty segment fault) : ¬ Gives segment name value := by
  intro gives
  have same := (addSegment_of_isFaulty faulty empty).symm.trans (addSegment_of_gives gives empty)
  contradiction

theorem not_gives_of_isBlank (blank : segment.isBlank = true) : ¬ Gives segment name value := by
  rintro ⟨key, rest, whole, _⟩
  rw [whole, isBlank_of_equals] at blank
  contradiction

/-! ## All segments -/

/-- The values of the first, but those of the second where it has any. -/
def overriddenBy (first second : Assignment) : Assignment :=
  fun name => (second name).or (first name)

/-- The fault is that of the first segment which has one. -/
def IsFirstFault (segments : List Text) (fault : SettingsFault) : Prop :=
  ∃ before segment after, segments = before ++ segment :: after ∧
    (∀ earlier ∈ before, ∀ other, ¬ IsFaulty earlier other) ∧ IsFaulty segment fault

/-- The value is the one that the last segment to give the option any gives it. -/
def IsLastGiven (segments : List Text) (name : OptionName) (value : Text) : Prop :=
  ∃ before segment after, segments = before ++ segment :: after ∧
    Gives segment name value ∧ ∀ later ∈ after, ∀ other, ¬ Gives later name other

theorem isFirstFault_cons_iff {rest : List Text} : IsFirstFault (segment :: rest) fault ↔
    IsFaulty segment fault ∨ (∀ other, ¬ IsFaulty segment other) ∧ IsFirstFault rest fault := by
  constructor
  · rintro ⟨before, faulted, after, whole, sound, faulty⟩
    cases before with
    | nil =>
      cases whole
      exact .inl faulty
    | cons first more =>
      cases whole
      exact .inr ⟨sound segment List.mem_cons_self,
        more, faulted, after, rfl, fun earlier member => sound earlier (List.mem_cons_of_mem _ member), faulty⟩
  · rintro (faulty | ⟨sound, before, faulted, after, rfl, soundBefore, faulty⟩)
    · exact ⟨[], segment, rest, rfl, by simp, faulty⟩
    · exact ⟨segment :: before, faulted, after, rfl, List.forall_mem_cons.mpr ⟨sound, soundBefore⟩, faulty⟩

theorem isLastGiven_cons_iff {rest : List Text} : IsLastGiven (segment :: rest) name value ↔
    IsLastGiven rest name value ∨ Gives segment name value ∧ ∀ later ∈ rest, ∀ other, ¬ Gives later name other := by
  constructor
  · rintro ⟨before, giver, after, whole, gives, last⟩
    cases before with
    | nil =>
      cases whole
      exact .inr ⟨gives, last⟩
    | cons first more =>
      cases whole
      exact .inl ⟨more, giver, after, rfl, gives, last⟩
  · rintro (⟨before, giver, after, rfl, gives, last⟩ | ⟨gives, last⟩)
    · exact ⟨segment :: before, giver, after, rfl, gives, last⟩
    · exact ⟨[], segment, rest, rfl, gives, last⟩

theorem addSegments_append (start : Assignment) (first second : List Text) : start.addSegments (first ++ second) =
    match start.addSegments first with
    | .error fault => .error fault
    | .ok after => after.addSegments second := by
  induction first generalizing start with
  | nil => rfl
  | cons segment rest ih =>
    simp only [List.cons_append, addSegments]
    cases start.addSegment segment with
    | error fault => rfl
    | ok after => exact ih after

theorem addSegments_eq_error_iff {segments : List Text} :
    ∀ {start : Assignment}, start.addSegments segments = .error fault ↔ IsFirstFault segments fault := by
  induction segments with
  | nil => simp [addSegments, IsFirstFault]
  | cons segment rest ih =>
    intro start
    rw [addSegments, isFirstFault_cons_iff]
    obtain ⟨blank, added⟩ | ⟨name, value, gives, added⟩ | ⟨found, faulty, added⟩ := addSegment_cases segment
    · have sound : ∀ other, ¬ IsFaulty segment other := by
        intro other faulty
        have same := (added empty).symm.trans (addSegment_of_isFaulty faulty empty)
        contradiction
      simp only [added, ih, sound, false_or, not_false_eq_true, implies_true, true_and]
    · have sound : ∀ other, ¬ IsFaulty segment other := fun other faulty => faulty.not_gives gives
      simp only [added, ih, sound, false_or, not_false_eq_true, implies_true, true_and]
    · simp only [added]
      constructor
      · rintro ⟨⟩
        exact .inl faulty
      · rintro (again | ⟨sound, _⟩)
        · exact (added empty).symm.trans (addSegment_of_isFaulty again empty)
        · exact absurd faulty (sound found)

/-- Of the values for an option the last one stays, and without any the one that it had. -/
theorem addSegments_value {segments : List Text} {after : Assignment} :
    ∀ {start : Assignment}, start.addSegments segments = .ok after → (after name = some value ↔
      IsLastGiven segments name value ∨
        (∀ segment ∈ segments, ∀ other, ¬ Gives segment name other) ∧ start name = some value) := by
  induction segments with
  | nil =>
    rintro start ⟨⟩
    simp [IsLastGiven]
  | cons segment rest ih =>
    intro start added
    rw [addSegments] at added
    rw [isLastGiven_cons_iff, List.forall_mem_cons]
    obtain ⟨blank, adds⟩ | ⟨other, given, gives, adds⟩ | ⟨fault, _, adds⟩ := addSegment_cases segment
    · simp only [adds] at added
      rw [ih added]
      simp only [not_gives_of_isBlank blank, false_and, or_false, not_false_eq_true, implies_true, true_and]
    · simp only [adds] at added
      rw [ih added, set]
      by_cases same : name = other
      · subst same
        have only : Gives segment name value ↔ given = value :=
          ⟨fun again => (gives.unique again).2, fun is => is ▸ gives⟩
        have some : ¬ ∀ other, ¬ Gives segment name other := fun none => none given gives
        simp only [if_true, Option.some.injEq, only, some, false_and, or_false, and_comm]
      · have none : ∀ second, ¬ Gives segment name second := fun second again => same (again.unique gives).1
        simp only [if_neg same, none, false_and, or_false, not_false_eq_true, implies_true, true_and]
    · simp only [adds] at added
      contradiction

/-! ## Options -/

/-- Options are at fault where one of their segments is, and the first such fault is reported. -/
theorem exists_read_eq_error_iff {options : Text} : (∃ fault, read options = .error fault) ↔
    ∃ segment ∈ pieces ';' options, ∃ fault, IsFaulty segment fault := by
  constructor
  · rintro ⟨fault, failed⟩
    obtain ⟨before, segment, after, whole, _, faulty⟩ := addSegments_eq_error_iff.mp failed
    exact ⟨segment, by simp [whole], fault, faulty⟩
  · rintro ⟨segment, member, fault, faulty⟩
    obtain ⟨before, after, whole⟩ := List.append_of_mem member
    rw [read, whole, addSegments_append]
    cases empty.addSegments before with
    | error earlier => exact ⟨earlier, rfl⟩
    | ok start =>
      refine ⟨fault, ?_⟩
      simp only [addSegments, addSegment_of_isFaulty faulty]

theorem read_value {options : Text} {assignment : Assignment} (accepted : read options = .ok assignment) :
    assignment name = some value ↔ IsLastGiven (pieces ';' options) name value := by
  rw [addSegments_value accepted]
  simp [empty]

theorem overriddenBy_assoc (first second third : Assignment) :
    (first.overriddenBy second).overriddenBy third = first.overriddenBy (second.overriddenBy third) := by
  funext name
  exact Option.or_assoc.symm

theorem addSegment_overriding (start : Assignment) (segment : Text) : start.addSegment segment =
    match empty.addSegment segment with
    | .error fault => .error fault
    | .ok added => .ok (start.overriddenBy added) := by
  obtain ⟨_, adds⟩ | ⟨name, value, _, adds⟩ | ⟨fault, _, adds⟩ := addSegment_cases segment
  · rw [adds, adds]
    exact congrArg Except.ok (funext fun name => (Option.none_or).symm)
  · rw [adds, adds]
    refine congrArg Except.ok (funext fun other => ?_)
    by_cases same : other = name
    · simp [set, overriddenBy, same]
    · simp [set, overriddenBy, empty, same]
  · rw [adds, adds]

/-- Segments that are added override what there is by what they give on their own. -/
theorem addSegments_overriding (segments : List Text) : ∀ start : Assignment, start.addSegments segments =
    match empty.addSegments segments with
    | .error fault => .error fault
    | .ok added => .ok (start.overriddenBy added) := by
  induction segments with
  | nil =>
    intro start
    exact congrArg Except.ok (funext fun name => (Option.none_or).symm)
  | cons segment rest ih =>
    intro start
    rw [addSegments, addSegments, addSegment_overriding start]
    cases empty.addSegment segment with
    | error fault => rfl
    | ok given =>
      simp only [ih (start.overriddenBy given), ih given]
      cases empty.addSegments rest with
      | error fault => rfl
      | ok added => exact congrArg Except.ok (overriddenBy_assoc start given added)

/-! ## Values that are written -/

/-- The segments write the values down, one in a segment and in this order, with blank segments anywhere. -/
inductive Writes : List Text → List (OptionName × Text) → Prop
  | nil : Writes [] []
  | blank {segment : Text} {segments : List Text} {given : List (OptionName × Text)} :
      segment.isBlank = true → Writes segments given → Writes (segment :: segments) given
  | value {segment : Text} {segments : List Text} {name : OptionName} {value : Text} {given : List (OptionName × Text)} :
      Gives segment name value → Writes segments given → Writes (segment :: segments) ((name, value) :: given)

variable {segments : List Text} {given : List (OptionName × Text)}

theorem Gives.plain (gives : Gives segment name value) (plain : ';' ∉ value) : ';' ∉ segment := by
  obtain ⟨key, rest, rfl, ⟨before, after, blankBefore, blankAfter, rfl⟩, ⟨front, back, blankFront, blankBack, rfl⟩, _⟩ :=
    gives
  have dark : Unicode.isWhiteSpace ';' = false := by decide
  simp [Text.not_mem_of_isBlank blankBefore dark, Text.not_mem_of_isBlank blankAfter dark,
    Text.not_mem_of_isBlank blankFront dark, Text.not_mem_of_isBlank blankBack dark, name.text_plain.2.2, plain]

/-- Written values hold no semicolon but those between the segments if none of the values does. -/
theorem Writes.plain (writes : Writes segments given) (plain : ∀ pair ∈ given, ';' ∉ pair.2) :
    ∀ segment ∈ segments, ';' ∉ segment := by
  induction writes with
  | nil => simp
  | blank blank _ ih =>
    exact List.forall_mem_cons.mpr ⟨Text.not_mem_of_isBlank blank (by decide), ih plain⟩
  | value gives _ ih =>
    obtain ⟨here, others⟩ := List.forall_mem_cons.mp plain
    exact List.forall_mem_cons.mpr ⟨gives.plain here, ih others⟩

/-- Text in which values are written has them in its pieces. -/
theorem Writes.of_intercalate (writes : Writes segments given) (plain : ∀ pair ∈ given, ';' ∉ pair.2) :
    Writes (pieces ';' (List.intercalate [';'] segments)) given := by
  by_cases none : segments = []
  · subst none
    cases writes
    exact .blank rfl .nil
  · rwa [pieces_intercalate none (writes.plain plain)]

/-- Values that agree with an assignment are read into what it has, for the options that have any. -/
theorem Writes.addSegments {assignment : Assignment} (writes : Writes segments given)
    (agrees : ∀ pair ∈ given, assignment pair.1 = some pair.2) : ∀ start : Assignment, ∃ after,
      start.addSegments segments = .ok after ∧ (∀ name ∈ given.map Prod.fst, after name = assignment name) ∧
        ∀ name ∉ given.map Prod.fst, after name = start name := by
  induction writes with
  | nil => exact fun start => ⟨start, rfl, by simp⟩
  | blank blank _ ih =>
    intro start
    rw [Assignment.addSegments, addSegment_of_isBlank blank]
    exact ih agrees start
  | @value segment _ name value given gives _ ih =>
    intro start
    obtain ⟨here, others⟩ := List.forall_mem_cons.mp agrees
    obtain ⟨after, added, listed, unlisted⟩ := ih others (start.set name value)
    refine ⟨after, ?_, List.forall_mem_cons.mpr ⟨?_, listed⟩, fun other missing => ?_⟩
    · rw [Assignment.addSegments, addSegment_of_gives gives]
      exact added
    · by_cases again : name ∈ given.map Prod.fst
      · exact listed name again
      · rw [unlisted name again, here, set, if_pos rfl]
    · rw [List.map_cons, List.mem_cons, not_or] at missing
      rw [unlisted other missing.2, set, if_neg missing.1]

/-- Options read as a merge of their parts: with more options behind them the first fault of both counts, and without
any the values of the second part override those of the first. They are at fault where a segment is, and the fault is
that of the first such segment. Values are read back from the segments that write them, in whatever order. -/
theorem read_merges :
    (∀ first second : Text, read (first ++ ';' :: second) =
      match read first with
      | .error fault => .error fault
      | .ok earlier => match read second with
        | .error fault => .error fault
        | .ok later => .ok (earlier.overriddenBy later)) ∧
    (∀ options : Text, ((∃ fault, read options = .error fault) ↔
        ∃ segment ∈ pieces ';' options, ∃ fault, IsFaulty segment fault) ∧
      ∀ fault, read options = .error fault ↔ IsFirstFault (pieces ';' options) fault) ∧
    ∀ (assignment : Assignment) (given : List (OptionName × Text)) (segments : List Text),
      (∀ name value, (name, value) ∈ given ↔ assignment name = some value) → (∀ pair ∈ given, ';' ∉ pair.2) →
      Writes segments given → read (List.intercalate [';'] segments) = .ok assignment := by
  refine ⟨fun first second => ?_, fun options => ⟨exists_read_eq_error_iff, fun fault => addSegments_eq_error_iff⟩, ?_⟩
  · rw [read, pieces_append_cons, addSegments_append, read, read]
    cases empty.addSegments (pieces ';' first) with
    | error fault => rfl
    | ok earlier => exact addSegments_overriding _ earlier
  · intro assignment given segments lists plain writes
    have agrees : ∀ pair ∈ given, assignment pair.1 = some pair.2 := fun pair member => (lists _ _).mp member
    obtain ⟨after, added, listed, unlisted⟩ := (writes.of_intercalate plain).addSegments agrees empty
    rw [read, added]
    refine congrArg Except.ok (funext fun name => ?_)
    by_cases member : name ∈ given.map Prod.fst
    · exact listed name member
    · rw [unlisted name member]
      refine (Option.eq_none_iff_forall_ne_some.mpr fun value is => ?_).symm
      exact member (List.mem_map_of_mem ((lists name value).mpr is))

/-- An empty interval and a suffix with an equals sign, with a blank segment between them. -/
theorem read_merges_of_two_values :
    let assignment := (empty.set .suffix "=x".toList).set .interval []
    let given : List (OptionName × Text) := [(.interval, []), (.suffix, "=x".toList)]
    let segments := ["\u3000interval\t=".toList, " ".toList, "suffix= =x\u2003".toList]
    (∀ name value, (name, value) ∈ given ↔ assignment name = some value) ∧ (∀ pair ∈ given, ';' ∉ pair.2) ∧
      Writes segments given ∧ read (List.intercalate [';'] segments) = .ok assignment := by
  intro assignment given segments
  have lists : ∀ name value, (name, value) ∈ given ↔ assignment name = some value := by
    intro name value
    cases name <;> simp [given, assignment, set, empty, eq_comm]
  have plain : ∀ pair ∈ given, ';' ∉ pair.2 := by simp [given]
  have first : Gives "\u3000interval\t=".toList .interval [] :=
    ⟨"\u3000interval\t".toList, [], rfl, ⟨"\u3000".toList, "\t".toList, rfl, rfl, rfl⟩, ⟨[], [], rfl, rfl, rfl⟩, by decide⟩
  have second : Gives "suffix= =x\u2003".toList .suffix "=x".toList :=
    ⟨"suffix".toList, " =x\u2003".toList, rfl, ⟨[], [], rfl, rfl, rfl⟩, ⟨" ".toList, "\u2003".toList, rfl, rfl, rfl⟩,
      by decide⟩
  have writes : Writes segments given := .value first (.blank rfl (.value second .nil))
  exact ⟨lists, plain, writes, read_merges.2.2 assignment given segments lists plain writes⟩

end Assignment

end Cadence
