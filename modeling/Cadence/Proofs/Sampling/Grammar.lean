import Cadence.Proofs.Sampling.Marks

/-!
The grammar of the lines that carry a sample. Up to its first newline such a line is digits in the places of a date and
a time of day, any text, ` height=`, digits, a space and any text (`Marked.Parts`). Lines that cannot be taken apart so
carry nothing. Of several ways the one with the longest text before the label counts (`Marked.LastParts`), and its stamp
and height are what is read (`Sample.ofLine_grammar`).
-/

namespace Cadence

/-- The text is so many digits, of any script. -/
def IsDigits (count : Nat) (text : Text) : Prop :=
  text.length = count ∧ ∀ c ∈ text, Unicode.isDecimalDigit c = true

namespace Marked

/-- Digits in the places of a date and a time of day. -/
def IsDated (stamp : Text) : Prop :=
  ∃ year month day hour minute second, IsDigits 4 year ∧ IsDigits 2 month ∧ IsDigits 2 day ∧ IsDigits 2 hour ∧
    IsDigits 2 minute ∧ IsDigits 2 second ∧
    stamp = year ++ '-' :: month ++ '-' :: day ++ ' ' :: hour ++ ':' :: minute ++ ':' :: second

/-- What a text with a sample is made of. -/
structure Parts (text stamp before height after : Text) : Prop where
  whole : text = stamp ++ before ++ " height=".toList ++ height ++ ' ' :: after
  dated : IsDated stamp
  digits : IsHeight height

/-- Of all ways to take the text apart, the one with the longest text before the label. -/
structure LastParts (text stamp before height after : Text) : Prop where
  parts : Parts text stamp before height after
  longest : ∀ stamp other height after, Parts text stamp other height after → other.length ≤ before.length

/-! ## Shapes -/

/-- Each character of the text fits the one in its place in the shape. -/
def Fits (shape text : Text) : Prop :=
  text.length = shape.length ∧ ∀ pair ∈ shape.zip text, fits pair.1 pair.2 = true

theorem fits_nil_iff {text : Text} : Fits [] text ↔ text = [] := by
  simp [Fits]

theorem fits_cons_iff {mark : Char} {shape text : Text} :
    Fits (mark :: shape) text ↔ ∃ c rest, text = c :: rest ∧ fits mark c = true ∧ Fits shape rest := by
  cases text with
  | nil => simp [Fits]
  | cons c rest =>
    simp only [Fits, List.length_cons, List.zip_cons_cons, List.forall_mem_cons, Nat.add_right_cancel_iff,
      List.cons.injEq]
    constructor
    · rintro ⟨length, first, others⟩
      exact ⟨c, rest, ⟨rfl, rfl⟩, first, length, others⟩
    · rintro ⟨_, _, ⟨rfl, rfl⟩, first, length, others⟩
      exact ⟨length, first, others⟩

theorem fits_separator_iff {mark : Char} (plain : mark ≠ 'd') {shape text : Text} :
    Fits (mark :: shape) text ↔ ∃ rest, text = mark :: rest ∧ Fits shape rest := by
  simp only [fits_cons_iff, fits, plain, if_false, decide_eq_true_eq]
  constructor
  · rintro ⟨_, rest, rfl, rfl, fit⟩
    exact ⟨rest, rfl, fit⟩
  · rintro ⟨rest, rfl, fit⟩
    exact ⟨_, rest, rfl, rfl, fit⟩

theorem fits_digits_iff (count : Nat) {shape text : Text} : Fits (List.replicate count 'd' ++ shape) text ↔
    ∃ digits rest, text = digits ++ rest ∧ IsDigits count digits ∧ Fits shape rest := by
  induction count generalizing text with
  | zero =>
    simp only [IsDigits, List.replicate_zero, List.nil_append, List.length_eq_zero_iff]
    constructor
    · intro fit
      exact ⟨[], text, rfl, ⟨rfl, by simp⟩, fit⟩
    · rintro ⟨_, rest, rfl, ⟨rfl, _⟩, fit⟩
      exact fit
  | succ count ih =>
    rw [List.replicate_succ, List.cons_append, fits_cons_iff]
    simp only [fits, if_true, ih]
    constructor
    · rintro ⟨c, _, rfl, digit, digits, rest, rfl, ⟨length, all⟩, fit⟩
      exact ⟨c :: digits, rest, rfl, ⟨by simp [length], by simpa [digit] using all⟩, fit⟩
    · rintro ⟨digits, rest, rfl, ⟨length, all⟩, fit⟩
      obtain ⟨c, more, rfl⟩ := List.exists_cons_of_length_eq_add_one length
      simp only [List.forall_mem_cons] at all
      exact ⟨c, more ++ rest, rfl, all.1, more, rest, rfl, ⟨by simpa using length, all.2⟩, fit⟩

theorem isStamp_iff {stamp : Text} : IsStamp stamp ↔ IsDated stamp := by
  have shape : IsStamp stamp ↔ Fits (List.replicate 4 'd' ++ '-' :: (List.replicate 2 'd' ++ '-' ::
      (List.replicate 2 'd' ++ ' ' :: (List.replicate 2 'd' ++ ':' :: (List.replicate 2 'd' ++ ':' ::
      (List.replicate 2 'd' ++ [])))))) stamp := Iff.rfl
  rw [shape]
  simp only [fits_digits_iff, fits_separator_iff (by decide : '-' ≠ 'd'), fits_separator_iff (by decide : ' ' ≠ 'd'),
    fits_separator_iff (by decide : ':' ≠ 'd'), fits_nil_iff]
  constructor
  · rintro ⟨year, _, rfl, y, _, rfl, month, _, rfl, m, _, rfl, day, _, rfl, d, _, rfl, hour, _, rfl, h, _, rfl, minute,
      _, rfl, n, _, rfl, second, _, rfl, s, rfl⟩
    exact ⟨year, month, day, hour, minute, second, y, m, d, h, n, s, by simp⟩
  · rintro ⟨year, month, day, hour, minute, second, y, m, d, h, n, s, rfl⟩
    exact ⟨year, _, by simp, y, _, rfl, month, _, rfl, m, _, rfl, day, _, rfl, d, _, rfl, hour, _, rfl, h, _, rfl, minute,
      _, rfl, n, _, rfl, second, _, rfl, s, rfl⟩

/-! ## Parts of a line -/

theorem IsDated.length {stamp : Text} (dated : IsDated stamp) : stamp.length = 19 :=
  (isStamp_iff.mpr dated).1

section
variable {text stamp before height after : Text}

theorem parts_iff : (∃ after, Parts text stamp before height after) ↔
    IsStamp stamp ∧ ∃ rest, text = stamp ++ rest ∧ MarksAfter rest before height := by
  constructor
  · rintro ⟨after, whole, dated, digits⟩
    refine ⟨isStamp_iff.mpr dated, before ++ label ++ height ++ ' ' :: after, ?_, digits, after, rfl⟩
    rw [whole, ← List.append_assoc, ← List.append_assoc, ← List.append_assoc]
    rfl
  · rintro ⟨isStamp, rest, rfl, digits, after, rfl⟩
    refine ⟨after, ?_, isStamp_iff.mp isStamp, digits⟩
    rw [← List.append_assoc, ← List.append_assoc, ← List.append_assoc]
    rfl

theorem Parts.stamp_eq (parts : Parts text stamp before height after) : stamp = text.take 19 := by
  rw [parts.whole, List.append_assoc, List.append_assoc, List.append_assoc, List.take_append_of_le_length,
    List.take_of_length_le]
  · simp [parts.dated.length]
  · simp [parts.dated.length]

end

/-- A line carries what stands in the last of all ways to take it apart. -/
theorem carries_iff {line : Text} {marked : Marked} : Carries line marked ↔ ∃ before after,
    LastParts (line.takeWhile (· ≠ '\n')) marked.stamp before marked.height after := by
  constructor
  · rintro ⟨isStamp, rest, whole, before, marks, longest⟩
    obtain ⟨after, parts⟩ := parts_iff.mpr ⟨isStamp, rest, whole, marks⟩
    refine ⟨before, after, parts, ?_⟩
    intro stamp other height behind otherParts
    obtain ⟨_, otherRest, otherWhole, otherMarks⟩ := parts_iff.mp ⟨behind, otherParts⟩
    rw [otherParts.stamp_eq, ← parts.stamp_eq, whole] at otherWhole
    rw [← List.append_cancel_left otherWhole] at otherMarks
    exact longest other height otherMarks
  · rintro ⟨before, after, parts, longest⟩
    obtain ⟨isStamp, rest, whole, marks⟩ := parts_iff.mp ⟨after, parts⟩
    refine ⟨isStamp, rest, whole, before, marks, ?_⟩
    intro other height otherMarks
    obtain ⟨behind, otherParts⟩ := parts_iff.mpr ⟨isStamp, rest, whole, otherMarks⟩
    exact longest _ other height behind otherParts

theorem ofLine?_eq_none_iff {line : Text} : ofLine? line = none ↔
    ∀ stamp before height after, ¬ Parts (line.takeWhile (· ≠ '\n')) stamp before height after := by
  constructor
  · intro nothing stamp before height after parts
    obtain ⟨⟨long, fitting⟩, rest, whole, marks⟩ := parts_iff.mp ⟨after, parts⟩
    have taken := (takeShape?_eq_some_iff stampShape).mpr ⟨whole, long, fitting⟩
    rw [ofLine?, taken, Option.bind_some, Option.map_eq_none_iff] at nothing
    exact lastHeight?_eq_none_iff.mp nothing before height marks
  · intro whole
    cases found : ofLine? line with
    | none => rfl
    | some marked =>
      obtain ⟨before, after, last⟩ := carries_iff.mp (ofLine?_eq_some_iff.mp found)
      exact absurd last.parts (whole _ _ _ _)

end Marked

/-! ## Reading a line -/

namespace Sample

theorem ofLine_eq_none_iff {number : Nat} {line : Text} : ofLine number line = .ok none ↔ Marked.ofLine? line = none := by
  unfold ofLine
  cases Marked.ofLine? line with
  | none => simp
  | some marked => cases named : Timestamp.ofStamp? marked.stamp <;> simp [named]

theorem ofLine_of_carries {line : Text} {marked : Marked} (carries : Marked.Carries line marked) (number : Nat) :
    ofLine number line = match Timestamp.ofStamp? marked.stamp with
      | none => .error (.badTimestamp number marked.stamp)
      | some time => .ok (some ⟨marked.stamp, time, marked.height⟩) := by
  have found := Marked.ofLine?_eq_some_iff.mpr carries
  cases named : Timestamp.ofStamp? marked.stamp <;> simp [ofLine, found, named]

theorem ofStamp?_of_ofLine {number : Nat} {line : Text} {sample : Sample}
    (read : ofLine number line = .ok (some sample)) : Timestamp.ofStamp? sample.stamp = some sample.time := by
  unfold ofLine at read
  split at read
  · cases read
  · split at read
    · cases read
    · rename_i time named
      cases read
      exact named

theorem ofLine_congr (number : Nat) {line other : Text}
    (same : other.takeWhile (· ≠ '\n') = line.takeWhile (· ≠ '\n')) : ofLine number other = ofLine number line := by
  simp only [ofLine, Marked.ofLine?, same]

/-- A line is read as nothing exactly if, up to its first newline, it cannot be taken apart. Otherwise one way to take it
apart has the longest text before the label; its stamp, the first nineteen characters, and its height are those of the
sample, or the stamp is that of the error. What stands behind the newline does not matter. -/
theorem ofLine_grammar (number : Nat) (line : Text) :
    let text := line.takeWhile (· ≠ '\n')
    (ofLine number line = .ok none ↔ ∀ stamp before height after, ¬ Marked.Parts text stamp before height after) ∧
    (ofLine number line = .ok none ∨ ∃ stamp before height after, Marked.LastParts text stamp before height after) ∧
    (∀ stamp before height after, Marked.LastParts text stamp before height after → stamp = text.take 19 ∧
      (ofLine number line = .error (.badTimestamp number stamp) ∨
        ∃ time, ofLine number line = .ok (some ⟨stamp, time, height⟩))) ∧
    ∀ other, other.takeWhile (· ≠ '\n') = text → ofLine number other = ofLine number line := by
  intro text
  refine ⟨ofLine_eq_none_iff.trans Marked.ofLine?_eq_none_iff, ?_, ?_, fun other same => ofLine_congr number same⟩
  · cases found : Marked.ofLine? line with
    | none => exact .inl (ofLine_eq_none_iff.mpr found)
    | some marked =>
      obtain ⟨before, after, last⟩ := Marked.carries_iff.mp (Marked.ofLine?_eq_some_iff.mp found)
      exact .inr ⟨_, before, _, after, last⟩
  · intro stamp before height after last
    refine ⟨last.parts.stamp_eq, ?_⟩
    have carries : Marked.Carries line ⟨stamp, height⟩ := Marked.carries_iff.mpr ⟨before, after, last⟩
    rw [ofLine_of_carries carries]
    cases Timestamp.ofStamp? stamp with
    | none => exact .inl rfl
    | some time => exact .inr ⟨time, rfl⟩

/-- Two markers that share a space, a third one that is cut short, and a fourth one behind the newline. -/
theorem ofLine_grammar_of_shared_space :
    let stamp := "2018-08-13 02:11:07".toList
    let other := "2018-08-13 02:11:07 height=1 height=007 x height=9".toList
    let line := other ++ "\n height=5 v".toList
    ∃ before after, Marked.LastParts (line.takeWhile (· ≠ '\n')) stamp before "007".toList after ∧
      (∃ time, ofLine 3 line = .ok (some ⟨stamp, time, "007".toList⟩)) ∧ ofLine 3 other = ofLine 3 line := by
  intro stamp other line
  have found : Marked.ofLine? line = some ⟨stamp, "007".toList⟩ := by decide +kernel
  have same : other.takeWhile (· ≠ '\n') = line.takeWhile (· ≠ '\n') := by decide +kernel
  have ok : (ofLine 3 line).toBool = true := by decide +kernel
  obtain ⟨before, after, last⟩ := Marked.carries_iff.mp (Marked.ofLine?_eq_some_iff.mp found)
  obtain ⟨_, _, reads, behind⟩ := ofLine_grammar 3 line
  refine ⟨before, after, last, ?_, behind other same⟩
  rcases (reads stamp before _ after last).2 with failed | read
  · rw [failed] at ok
    contradiction
  · exact read

end Sample

end Cadence
