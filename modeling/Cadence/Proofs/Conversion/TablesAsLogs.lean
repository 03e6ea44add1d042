import Cadence.Proofs.Conversion.KeptLogs
import Cadence.Proofs.Pacing.Elapsed
import Cadence.Proofs.Time.Durations

/-!
Tables read as logs. A height is announced with an equals sign, and no table holds one (`Settings.Writes.isSilent`). So
nothing is sampled from a table, and its conversion is that of an empty log (`Settings.convertLines_of_silent`).
-/

namespace Cadence

/-- The byte of `=`. -/
def equalsSign : UInt8 := 61

/-- No height is announced anywhere in the bytes, for lack of an equals sign. -/
def IsSilent (bytes : Bytes) : Prop := equalsSign ∉ bytes

/-! ## Silent logs -/

theorem IsSilent.not_mem_line {bytes : Bytes} (silent : IsSilent bytes) : ∀ line ∈ Lines.ofBytes bytes, '=' ∉ line := by
  intro line isLine member
  obtain ⟨piece, isPiece, rfl⟩ := List.mem_map.mp isLine
  obtain ⟨stretch, isStretch, isPiece⟩ := List.mem_flatMap.mp isPiece
  have inPiece : equalsSign ∈ piece := Utf8.mem_of_mem_decode (by decide) (by decide) member
  have inStretch : equalsSign ∈ stretch := by
    have inside := mem_of_mem_pieces piece isPiece inPiece
    unfold Lines.withoutFinalReturn at inside
    split at inside
    · exact (List.dropLast_sublist _).mem inside
    · exact inside
  have cut : stretch ∈ pieces Lines.newline bytes := by
    unfold Lines.stretches at isStretch
    simp only at isStretch
    split at isStretch
    · exact (List.dropLast_sublist _).mem isStretch
    · exact isStretch
  exact silent (mem_of_mem_pieces stretch cut inStretch)

theorem Sample.ofLine_of_no_equalsSign {line : Text} (number : Nat) (free : '=' ∉ line) :
    Sample.ofLine number line = .ok none := by
  have unmarked : Marked.ofLine? line = none := by
    rw [Option.eq_none_iff_forall_ne_some]
    intro marked found
    obtain ⟨_, rest, whole, before, ⟨_, after, marks⟩, _⟩ := Marked.ofLine?_eq_some_iff.mp found
    have labelled : '=' ∈ Marked.label := by decide
    have inside : '=' ∈ line.takeWhile (· ≠ '\n') := by
      rw [whole, marks]
      simp [labelled]
    exact free ((List.takeWhile_sublist _).mem inside)
  rw [ofLine, unmarked]

theorem Pass.rowsOf_of_unmarked (log : Path) {lines : List Text}
    (unmarked : ∀ line ∈ lines, ∀ number, Sample.ofLine number line = .ok none) : ∀ (pacer : Pacer) (behind : Nat),
    rowsOf log pacer behind (lines.map .ok) = [] := by
  induction lines with
  | nil => exact fun _ _ => rfl
  | cons line rest ih =>
    intro pacer behind
    rw [List.map_cons, rowsOf, unmarked line List.mem_cons_self]
    exact ih (fun other member => unmarked other (List.mem_cons_of_mem _ member)) pacer (behind + 1)

theorem Settings.convertLines_of_silent (settings : Settings) (log target : Path) {first second : Bytes}
    (firstSilent : IsSilent first) (secondSilent : IsSilent second) (sink : Csv.Sink) :
    settings.convertLines log target (linesRead (.ok first)) sink =
      settings.convertLines log target (linesRead (.ok second)) sink := by
  have nothing : ∀ bytes, IsSilent bytes →
      Pass.rowsOf log (Pacer.new settings.step) 0 (linesRead (.ok bytes)) = [] := by
    intro bytes silent
    exact Pass.rowsOf_of_unmarked log
      (fun line member number => Sample.ofLine_of_no_equalsSign number (silent.not_mem_line line member)) _ 0
  rw [convertLines, convertLines, nothing first firstSilent, nothing second secondSilent]

/-! ## Tables -/

theorem encodeChar_equalsSign {c : Char} (member : equalsSign ∈ String.utf8EncodeChar c) : c = '=' := by
  have value : equalsSign.toNat = 61 := rfl
  have number : c.val.toNat = 61 := by
    unfold String.utf8EncodeChar at member
    simp only at member
    -- only the byte of a character that has no other is below 128
    repeat' split at member
    all_goals
      simp only [List.mem_cons, List.not_mem_nil, or_false, ← UInt8.toNat_inj, UInt8.toNat_ofNat', value] at member
      omega
  exact Char.ext (UInt32.toNat_inj.mp number)

theorem mem_of_equalsSign_mem {text : Text} (member : equalsSign ∈ Utf8.encode text) : '=' ∈ text := by
  obtain ⟨c, inside, byte⟩ := List.mem_flatMap.mp member
  exact encodeChar_equalsSign byte ▸ inside

namespace Csv

private theorem mem_fieldAtoms {field : Bytes} (member : equalsSign ∈ (fieldAtoms field).flatten) :
    equalsSign ∈ field := by
  have quotes : equalsSign ≠ quote := by decide
  unfold fieldAtoms at member
  split at member
  · simp only [List.flatten_append, List.flatten_cons, List.flatten_nil, List.mem_append, List.mem_cons,
      List.not_mem_nil, or_false, quotes, false_or, List.mem_flatten, List.mem_map] at member
    obtain ⟨_, ⟨byte, inside, rfl⟩, atom⟩ := member
    rw [quotedByte] at atom
    split at atom
    · simp [quotes] at atom
    · exact List.mem_singleton.mp atom ▸ inside
  · simp only [List.mem_flatten, List.mem_map] at member
    obtain ⟨_, ⟨byte, inside, rfl⟩, atom⟩ := member
    exact List.mem_singleton.mp atom ▸ inside

private theorem mem_fieldsAtoms (fields : List Bytes) (member : equalsSign ∈ (fieldsAtoms fields).flatten) :
    ∃ field ∈ fields, equalsSign ∈ field := by
  induction fields with
  | nil => cases member
  | cons field rest ih =>
    cases rest with
    | nil => exact ⟨field, List.mem_cons_self, mem_fieldAtoms member⟩
    | cons second more =>
      rw [fieldsAtoms, List.flatten_append, List.flatten_cons, List.mem_append, List.mem_append] at member
      · rcases member with first | separator | later
        · exact ⟨field, List.mem_cons_self, mem_fieldAtoms first⟩
        · exact absurd separator (by decide)
        · obtain ⟨other, isOther, inside⟩ := ih later
          exact ⟨other, List.mem_cons_of_mem _ isOther, inside⟩
      · simp

theorem record_isSilent {fields : List Text} (free : ∀ field ∈ fields, '=' ∉ field) : IsSilent (record fields) := by
  intro member
  rw [record, recordAtoms, List.flatten_append, List.mem_append] at member
  rcases member with member | ended
  · obtain ⟨field, isField, inside⟩ := mem_fieldsAtoms _ member
    obtain ⟨text, isText, rfl⟩ := List.mem_map.mp isField
    exact free text isText (mem_of_equalsSign_mem inside)
  · exact absurd ended (by decide)

end Csv

theorem Span.equalsSign_not_mem_format (span : Span) (format : ElapsedFormat) : '=' ∉ span.format format := by
  intro member
  cases format with
  | seconds =>
    rcases (Decimal.isInteger_iff.mpr rfl).of_mem member with minus | digit
    · exact absurd minus (by decide)
    · exact absurd digit (by decide)
  | duration =>
    obtain ⟨_, _, _, _, duration, _⟩ := Span.eq_durationText_iff.mp (Eq.refl span.durationText)
    rcases duration.of_mem member with mark | digit
    · exact absurd mark (by decide)
    · exact absurd digit (by decide)

theorem Marked.equalsSign_not_mem_stamp {stamp : Text} (isStamp : IsStamp stamp) : '=' ∉ stamp := by
  intro member
  obtain ⟨length, fitting⟩ := isStamp
  obtain ⟨i, inside, same⟩ := List.mem_iff_getElem.mp member
  have inShape : i < stampShape.length := length ▸ inside
  have inZip : i < (stampShape.zip stamp).length := by
    rw [List.length_zip]
    omega
  have fit := fitting _ (List.getElem_mem inZip)
  rw [List.getElem_zip] at fit
  have unfit : stampShape.all (fun shape => !fits shape '=') := by decide
  have refused := List.all_eq_true.mp unfit _ (List.getElem_mem inShape)
  rw [same] at fit
  rw [fit] at refused
  cases refused

theorem Csv.encoded_isSilent {format : ElapsedFormat} {rows : List Row}
    (free : ∀ row ∈ rows, '=' ∉ row.stamp ∧ '=' ∉ row.height) : IsSilent (encoded format rows) := by
  intro member
  obtain ⟨fields, isRecord, inside⟩ := List.mem_flatMap.mp member
  refine record_isSilent ?_ inside
  rcases List.mem_cons.mp isRecord with rfl | isFields
  · decide
  · obtain ⟨row, isRow, rfl⟩ := List.mem_map.mp isFields
    simp only [Row.fields, List.forall_mem_cons]
    exact ⟨(free row isRow).1, Span.equalsSign_not_mem_format _ _, (free row isRow).2, by simp⟩

theorem AreSamples.equalsSign_not_mem {lines : List Text} {all read : List (Nat × Marked)} {samples : List Sample}
    (marked : AreMarkings lines all) (front : read <+: all) (areSamples : AreSamples read samples) :
    ∀ sample ∈ samples, '=' ∉ sample.stamp ∧ '=' ∉ sample.height := by
  intro sample member
  obtain ⟨length, same⟩ := areSamples
  obtain ⟨i, inside, rfl⟩ := List.mem_iff_getElem.mp member
  have inRead : i < read.length := length ▸ inside
  have inZip : i < (read.zip samples).length := by
    rw [List.length_zip]
    omega
  obtain ⟨stamp, height, _⟩ := same _ (List.getElem_mem inZip)
  rw [List.getElem_zip] at stamp height
  obtain ⟨_, line, _, _, isStamp, _, _, _, ⟨⟨_, digits⟩, _⟩, _⟩ :=
    (marked.2 _ _).mp (front.subset (List.getElem_mem inRead))
  rw [stamp, height]
  exact ⟨Marked.equalsSign_not_mem_stamp isStamp, fun member => absurd (digits '=' member) (by decide)⟩

theorem mem_rowsSinceFirst {samples : List Sample} {row : Row} (member : row ∈ rowsSinceFirst samples) :
    ∃ sample ∈ samples, row.stamp = sample.stamp ∧ row.height = sample.height := by
  cases samples with
  | nil => cases member
  | cons first rest =>
    obtain ⟨sample, isSample, rfl⟩ := List.mem_map.mp member
    exact ⟨sample, isSample, rfl, rfl⟩

/-- What a conversion writes is silent. -/
theorem Settings.Writes.isSilent {settings : Settings} (positive : 0 < settings.step.nanoseconds) {table : Bytes}
    (writes : settings.Writes table) : IsSilent table := by
  obtain ⟨log, target, content, rfl⟩ := writes
  cases content with
  | error cause =>
    rw [convertLines_of_error]
    exact Csv.encoded_isSilent (by simp)
  | ok bytes =>
    obtain ⟨_, table, written, all, read, samples, selected, marked, front, areSamples, _, rfl, _⟩ :=
      means_of_step_pos positive log target bytes
    rw [written]
    refine Csv.encoded_isSilent ?_
    intro row isRow
    obtain ⟨sample, isSample, stamp, height⟩ := mem_rowsSinceFirst ((picked_sublist _ _).subset isRow)
    rw [stamp, height]
    exact areSamples.equalsSign_not_mem marked front sample isSample

end Cadence
