import Cadence.Csv.Table

/-!
What reaches the sink. A buffered writer keeps all that was put into it, in order: what the sink has taken
followed by what is still held (`BufferedWriter.content`). The sink refuses a block only if all that was put in
is more than it admits, and what is refused stays in the buffer (`BufferedWriter.Serves`). So the sink ends up
with the header and the rows up to the first failure among them, or with a front of these bytes if they do not
fit (`writeTable_cases`); one that never fails always has all of them (`writeTable_unlimited`).
-/

namespace Cadence.Csv

namespace Sink

/-- So many bytes in all stay within the limit, if there is one. -/
def Admits (sink : Sink) (total : Nat) : Prop :=
  ∀ limit, sink.limit = some limit → total ≤ limit

theorem hasRoomFor_iff (sink : Sink) (count : Nat) :
    sink.hasRoomFor count = true ↔ sink.Admits (sink.taken.length + count) := by
  unfold hasRoomFor Admits
  cases sink.limit with
  | none => simp
  | some limit => simp

theorem Admits.mono {sink : Sink} {fewer total : Nat} (admits : sink.Admits total) (le : fewer ≤ total) :
    sink.Admits fewer :=
  fun limit limited => Nat.le_trans le (admits limit limited)

end Sink

namespace BufferedWriter

/-- All that was put into a writer: what the sink has, then what is held. -/
def content (writer : BufferedWriter) : Bytes :=
  writer.sink.taken ++ writer.held.toList

/-- The writer hands on to a sink like this one, which has been given no more than it takes. -/
structure Serves (writer : BufferedWriter) (base : Sink) : Prop where
  same : writer.sink = { base with taken := writer.sink.taken }
  admitted : base.Admits writer.sink.taken.length

variable {writer : BufferedWriter} {base : Sink}

theorem new_serves (admitted : base.Admits base.taken.length) : (new base).Serves base :=
  ⟨rfl, admitted⟩

theorem Serves.hasRoomFor_iff (serves : writer.Serves base) (count : Nat) :
    writer.sink.hasRoomFor count = true ↔ base.Admits (writer.sink.taken.length + count) := by
  rw [serves.same, Sink.hasRoomFor_iff]
  rfl

/-- What is held is handed on if all that was put in is admitted, and refused otherwise. -/
theorem Serves.handOn_cases (serves : writer.Serves base) :
    (base.Admits writer.content.length ∧ writer.handOn = .ok ⟨{ base with taken := writer.content }, #[]⟩) ∨
    (¬ base.Admits writer.content.length ∧ writer.handOn = .error Sink.full) := by
  have total : writer.content.length = writer.sink.taken.length + writer.held.toList.length := by simp [content]
  rw [handOn, total]
  by_cases empty : writer.held.isEmpty = true
  · obtain ⟨sink, held⟩ := writer
    obtain rfl : held = #[] := Array.isEmpty_iff.mp empty
    rw [if_pos empty]
    refine .inl ⟨by simpa using serves.admitted, congrArg Except.ok ?_⟩
    rw [content, List.append_nil, ← serves.same]
  · rw [if_neg empty, Sink.write]
    by_cases room : base.Admits (writer.sink.taken.length + writer.held.toList.length)
    · rw [if_pos ((serves.hasRoomFor_iff _).mpr room), serves.same]
      exact .inl ⟨room, rfl⟩
    · rw [if_neg (fun has => room ((serves.hasRoomFor_iff _).mp has))]
      exact .inr ⟨room, rfl⟩

theorem serves_handedOn {content : Bytes} (admitted : base.Admits content.length) (held : Array UInt8) :
    Serves ⟨{ base with taken := content }, held⟩ base :=
  ⟨rfl, admitted⟩

theorem Serves.put_cases (serves : writer.Serves base) (atom : Atom) :
    (∃ after, writer.put atom = .ok after ∧ after.Serves base ∧ after.content = writer.content ++ atom) ∨
    (¬ base.Admits writer.content.length ∧ writer.put atom = .error Sink.full) := by
  unfold put
  by_cases fits : writer.held.size + atom.length ≤ capacity
  · rw [if_pos fits]
    exact .inl ⟨_, rfl, ⟨serves.same, serves.admitted⟩, by simp [content]⟩
  · rw [if_neg fits]
    obtain ⟨admitted, handed⟩ | ⟨refused, handed⟩ := serves.handOn_cases
    · rw [handed]
      exact .inl ⟨_, rfl, serves_handedOn admitted _, by simp [content]⟩
    · rw [handed]
      exact .inr ⟨refused, rfl⟩

/-- Atoms are all added, or those before one at which more was put in than the sink admits. -/
theorem Serves.putAll_cases (atoms : List Atom) : ∀ {writer : BufferedWriter}, writer.Serves base →
    (∃ after, writer.putAll atoms = (none, after) ∧ after.Serves base ∧
      after.content = writer.content ++ atoms.flatten) ∨
    ∃ after, writer.putAll atoms = (some Sink.full, after) ∧ after.Serves base ∧
      after.content <+: writer.content ++ atoms.flatten ∧ ¬ base.Admits after.content.length := by
  induction atoms with
  | nil =>
    intro writer serves
    exact .inl ⟨writer, rfl, serves, by simp⟩
  | cons atom rest ih =>
    intro writer serves
    rw [putAll]
    obtain ⟨next, written, still, grown⟩ | ⟨refused, stuck⟩ := serves.put_cases atom
    · rw [written, List.flatten_cons, ← List.append_assoc, ← grown]
      exact ih still
    · rw [stuck]
      exact .inr ⟨writer, rfl, serves, List.prefix_append _ _, refused⟩

theorem Serves.flush_cases (serves : writer.Serves base) :
    (base.Admits writer.content.length ∧ writer.flush =
      (if base.refusesFlush then some Sink.flushRefused else none, ⟨{ base with taken := writer.content }, #[]⟩)) ∨
    (¬ base.Admits writer.content.length ∧ writer.flush = (some Sink.full, writer)) := by
  rw [flush]
  obtain ⟨admitted, handed⟩ | ⟨refused, handed⟩ := serves.handOn_cases
  · rw [handed]
    exact .inl ⟨admitted, rfl⟩
  · rw [handed]
    exact .inr ⟨refused, rfl⟩

/-- Once the writer is given up the sink has the front of what was put in, and all of it if this is admitted. -/
theorem Serves.close_cases (serves : writer.Serves base) : ∃ taken, writer.close = { base with taken } ∧
    taken <+: writer.content ∧ (base.Admits writer.content.length → taken = writer.content) := by
  rw [close]
  obtain ⟨_, handed⟩ | ⟨refused, handed⟩ := serves.handOn_cases
  · rw [handed]
    exact ⟨_, rfl, List.prefix_rfl, fun _ => rfl⟩
  · rw [handed]
    exact ⟨_, serves.same, List.prefix_append _ _, fun admitted => absurd admitted refused⟩

end BufferedWriter

/-! ## Tables -/

/-- The bytes of a table of these rows. -/
def encoded (format : ElapsedFormat) (rows : List Row) : Bytes :=
  (Row.header :: rows.map (·.fields format)).flatMap record

/-- How a table ends: with the number of all its rows, or with the failure that ended the rows. -/
def ending (rows : List Row) : Option Failure → Except Failure Nat
  | none => .ok rows.length
  | some failure => .error failure

/-- Rows as they are read, up to a failure if there is one. -/
def rowReads (rows : List Row) : Option Failure → List RowRead
  | none => rows.map .ok
  | some failure => rows.map .ok ++ [.error failure]

/-- How a table ends whose bytes all reach the sink: as its rows do, unless the sink then refuses to be flushed. -/
def closing (path : Path) (base : Sink) (rows : List Row) (failure : Option Failure) : Except Failure Nat :=
  if failure = none ∧ base.refusesFlush = true then .error (.io path Sink.flushRefused) else ending rows failure

/-- How a table ends whose bytes are too many for the sink: with the failure among its rows, or with one of the sink. -/
def EndsShort (path : Path) (failure : Option Failure) (cause : Failure) : Prop :=
  failure = some cause ∨ cause = .csv path Sink.full ∨ cause = .io path Sink.full

section
variable {base : Sink} (path : Path) (format : ElapsedFormat)

theorem writeRows_cases (failure : Option Failure) (rows : List Row) :
    ∀ {writer : BufferedWriter} (count : Nat), writer.Serves base →
      let whole := writer.content ++ (rows.map (·.fields format)).flatMap record
      (base.Admits whole.length ∧ ∃ after, writeRows path format writer count (rowReads rows failure) =
        ((closing path base rows failure).map (count + ·), after) ∧ after.Serves base ∧ after.content = whole) ∨
      (¬ base.Admits whole.length ∧ ∃ cause after,
        writeRows path format writer count (rowReads rows failure) = (.error cause, after) ∧ after.Serves base ∧
        after.content <+: whole ∧ EndsShort path failure cause) := by
  induction rows with
  | nil =>
    intro writer count serves whole
    have same : whole = writer.content := by simp [whole]
    rw [same]
    cases failure with
    | none =>
      rw [rowReads, List.map_nil, writeRows]
      obtain ⟨admitted, flushed⟩ | ⟨refused, flushed⟩ := serves.flush_cases
      · refine .inl ⟨admitted, ⟨{ base with taken := writer.content }, #[]⟩, ?_, BufferedWriter.serves_handedOn admitted _,
          by simp [BufferedWriter.content]⟩
        rw [flushed, closing]
        cases base.refusesFlush <;> rfl
      · rw [flushed]
        exact .inr ⟨refused, _, writer, rfl, serves, List.prefix_rfl, .inr (.inr rfl)⟩
    | some failure =>
      by_cases admitted : base.Admits writer.content.length
      · exact .inl ⟨admitted, writer, rfl, serves, rfl⟩
      · exact .inr ⟨admitted, failure, writer, rfl, serves, List.prefix_rfl, .inl rfl⟩
  | cons row rest ih =>
    intro writer count serves whole
    have unfolded : rowReads (row :: rest) failure = .ok row :: rowReads rest failure := by
      cases failure <;> rfl
    have parts : whole = writer.content ++ (recordAtoms (row.fields format)).flatten ++
        (rest.map (·.fields format)).flatMap record := by
      simp [whole, record]
    rw [unfolded, writeRows, parts]
    obtain ⟨next, written, still, grown⟩ | ⟨after, stuck, serves, front, refused⟩ :=
      serves.putAll_cases (recordAtoms (row.fields format))
    · rw [written, ← grown]
      obtain ⟨admitted, after, all, ends, total⟩ | short := ih (count + 1) still
      · refine .inl ⟨admitted, after, ?_, ends, total⟩
        show writeRows path format next (count + 1) (rowReads rest failure) = _
        rw [all]
        refine Prod.ext ?_ rfl
        cases failure with
        | none => cases refuses : base.refusesFlush <;> simp [closing, ending, Except.map, refuses]; omega
        | some failure => rfl
      · exact .inr short
    · rw [stuck]
      have longer := front.trans (List.prefix_append _ ((rest.map (·.fields format)).flatMap record))
      exact .inr ⟨fun admitted => refused (admitted.mono longer.length_le), _, after, rfl, serves, longer, .inr (.inl rfl)⟩

/-- All bytes of a table reach the sink if they fit, and otherwise a front of them, with an error. -/
theorem writeTable_cases (rows : List Row) (failure : Option Failure) (base : Sink)
    (given : base.Admits base.taken.length) :
    let whole := base.taken ++ encoded format rows
    (base.Admits whole.length ∧ writeTable path format (rowReads rows failure) base =
      (closing path base rows failure, { base with taken := whole })) ∨
    (¬ base.Admits whole.length ∧ ∃ cause taken,
      writeTable path format (rowReads rows failure) base = (.error cause, { base with taken }) ∧
      taken <+: whole ∧ EndsShort path failure cause) := by
  intro whole
  have parts : whole = (BufferedWriter.new base).content ++ (recordAtoms Row.header).flatten ++
      (rows.map (·.fields format)).flatMap record := by
    simp [whole, encoded, record, BufferedWriter.content, BufferedWriter.new]
  rw [writeTable, parts]
  obtain ⟨next, written, still, grown⟩ | ⟨after, stuck, serves, front, refused⟩ :=
    (BufferedWriter.new_serves given).putAll_cases (recordAtoms Row.header)
  · rw [written, ← grown]
    obtain ⟨admitted, after, all, ends, total⟩ | ⟨refused, cause, after, all, ends, front, short⟩ :=
      writeRows_cases path format failure rows 0 still
    · obtain ⟨taken, closed, _, complete⟩ := ends.close_cases
      rw [total] at complete
      refine .inl ⟨admitted, ?_⟩
      simp only [all, closed, complete admitted]
      refine Prod.ext ?_ rfl
      cases closing path base rows failure <;> simp [Except.map]
    · obtain ⟨taken, closed, before, _⟩ := ends.close_cases
      refine .inr ⟨refused, cause, taken, ?_, before.trans front, short⟩
      simp only [all, closed]
  · rw [stuck]
    obtain ⟨taken, closed, before, _⟩ := serves.close_cases
    have longer := front.trans (List.prefix_append _ ((rows.map (·.fields format)).flatMap record))
    refine .inr ⟨fun admitted => refused (admitted.mono longer.length_le), _, taken, ?_, before.trans longer,
      .inr (.inl rfl)⟩
    simp only [closed]

/-- A sink that never fails ends up with the header and the rows up to the first failure. -/
theorem writeTable_unlimited (rows : List Row) (failure : Option Failure) :
    writeTable path format (rowReads rows failure) .unlimited =
      (ending rows failure, { Sink.unlimited with taken := encoded format rows }) := by
  obtain ⟨_, written⟩ | ⟨refused, _⟩ :=
    writeTable_cases path format rows failure .unlimited (fun limit limited => by cases limited)
  · rw [written, closing, if_neg (by simp [Sink.unlimited])]
    rfl
  · exact absurd (fun limit limited => by cases limited) refused

end

end Cadence.Csv
