import Cadence.Csv.Record
import Cadence.Proofs.Text.Encoding

/-!
A reader of comma-separated values: commas part the fields, a newline ends a record, and a field that
begins with a quote goes on to its closing quote, two quotes in it standing for one. It is strict: a quote
or a carriage return in a bare field, anything but a comma or a newline behind a closing quote, and bytes
that are no UTF-8 are refused. It gives back every list of records that was written
(`read?_flatMap_record`).
-/

namespace Cadence.Csv

/-- Where in a record a reader stands. -/
inductive Place
  | recordStart
  | fieldStart
  /-- In a field without quotes. -/
  | bare
  /-- In a quoted field. -/
  | quoted
  /-- Behind a quote in a quoted field, which closes it unless another one follows. -/
  | quoteMet
deriving DecidableEq

/-- A reader under way. -/
structure Reader where
  /-- The records that are complete. -/
  records : List (List Bytes)
  /-- The complete fields of the record under way. -/
  fields : List Bytes
  /-- The field under way. -/
  field : Bytes
  place : Place
deriving DecidableEq

namespace Reader

def start : Reader := ⟨[], [], [], .recordStart⟩

def take (reader : Reader) (byte : UInt8) (place : Place) : Reader :=
  { reader with field := reader.field ++ [byte], place }

/-- Ends the field, and at a newline the record as well. -/
def endField (reader : Reader) (separator : UInt8) : Reader :=
  if separator = newline then ⟨reader.records ++ [reader.fields ++ [reader.field]], [], [], .recordStart⟩
  else ⟨reader.records, reader.fields ++ [reader.field], [], .fieldStart⟩

/-- Reads a byte, unless it cannot stand here. -/
def step (reader : Reader) (byte : UInt8) : Option Reader :=
  match reader.place with
  | .quoted => some (if byte = quote then { reader with place := .quoteMet } else reader.take byte .quoted)
  | .quoteMet =>
    if byte = quote then some (reader.take byte .quoted)
    else if byte = comma ∨ byte = newline then some (reader.endField byte)
    else none
  | .bare =>
    if byte = comma ∨ byte = newline then some (reader.endField byte)
    else if isSpecial byte then none
    else some (reader.take byte .bare)
  | _ =>
    if byte = quote then some { reader with place := .quoted }
    else if byte = comma ∨ byte = newline then some (reader.endField byte)
    else if isSpecial byte then none
    else some (reader.take byte .bare)

/-- Reads bytes, up to the first that cannot stand where it does. -/
def run (reader : Reader) : Bytes → Option Reader
  | [] => some reader
  | byte :: rest => (reader.step byte).bind fun after => after.run rest

/-- The records at the end of the bytes; a record that no newline ends counts as well. -/
def finish (reader : Reader) : Option (List (List Bytes)) :=
  match reader.place with
  | .recordStart => some reader.records
  | .quoted => none
  | _ => some (reader.endField newline).records

end Reader

def texts? (records : List (List Bytes)) : Option (List (List Text)) :=
  records.mapM fun fields => fields.mapM Utf8.decode?

def read? (bytes : Bytes) : Option (List (List Text)) :=
  ((Reader.start.run bytes).bind Reader.finish).bind texts?

/-! ## Reading a field -/

namespace Reader

theorem run_append (bytes rest : Bytes) : ∀ reader : Reader,
    reader.run (bytes ++ rest) = (reader.run bytes).bind fun after => after.run rest := by
  induction bytes with
  | nil => intro reader; rfl
  | cons byte tail ih =>
    intro reader
    rw [List.cons_append, run, run]
    cases reader.step byte with
    | none => rfl
    | some after => exact ih after

/-- A separator: what ends a field. -/
def IsSeparator (byte : UInt8) : Prop := byte = comma ∨ byte = newline

theorem run_bare {separator : UInt8} (ends : IsSeparator separator) (field : Bytes)
    (plain : field.any isSpecial = false) (rest : Bytes) : ∀ reader : Reader,
    reader.place ≠ .quoted → reader.place ≠ .quoteMet →
    reader.run (field ++ separator :: rest) =
      ({ reader with field := reader.field ++ field }.endField separator).run rest := by
  have notQuote : separator ≠ quote := by rcases ends with rfl | rfl <;> decide
  induction field with
  | nil =>
    intro reader notQuoted notMet
    have stepped : reader.step separator = some (reader.endField separator) := by
      unfold step
      split <;> simp_all [IsSeparator]
    rw [List.nil_append, run, stepped]
    simp
  | cons byte tail ih =>
    intro reader notQuoted notMet
    simp only [List.any_cons, Bool.or_eq_false_iff] at plain
    have notSeparator : ¬ (byte = comma ∨ byte = newline) := by
      rintro (rfl | rfl) <;> simp [isSpecial] at plain
    have notOpening : byte ≠ quote := by
      rintro rfl
      simp [isSpecial] at plain
    have stepped : reader.step byte = some (reader.take byte .bare) := by
      unfold step
      split <;> simp_all
    rw [List.cons_append, run, stepped]
    simp only [Option.bind_some]
    rw [ih plain.2 (reader.take byte .bare) (by simp [take]) (by simp [take])]
    simp [take, endField]

/-- A quoted field behind its opening quote, up to the separator. -/
theorem run_quoted {separator : UInt8} (ends : IsSeparator separator) (field rest : Bytes) : ∀ reader : Reader,
    reader.place = .quoted →
    reader.run ((field.map quotedByte).flatten ++ quote :: separator :: rest) =
      ({ reader with field := reader.field ++ field }.endField separator).run rest := by
  have notQuote : separator ≠ quote := by rcases ends with rfl | rfl <;> decide
  induction field with
  | nil =>
    intro reader inside
    simp only [List.map_nil, List.flatten_nil, List.nil_append, run, step, inside, if_true, Option.bind_some,
      notQuote, if_false, List.append_nil]
    rw [if_pos (show separator = comma ∨ separator = newline from ends)]
    simp [endField]
  | cons byte tail ih =>
    intro reader inside
    have stepped : reader.run (quotedByte byte) = some (reader.take byte .quoted) := by
      unfold quotedByte
      by_cases isQuote : byte = quote
      · subst isQuote
        simp [run, step, inside, take]
      · simp [run, step, inside, isQuote]
    rw [List.map_cons, List.flatten_cons, List.append_assoc, run_append, stepped]
    simp only [Option.bind_some]
    rw [ih (reader.take byte .quoted) rfl]
    simp [take, endField]

theorem run_fieldAtoms {separator : UInt8} (ends : IsSeparator separator) (field rest : Bytes) {reader : Reader}
    (fresh : reader.field = []) (begins : reader.place = .recordStart ∨ reader.place = .fieldStart) :
    reader.run ((fieldAtoms field).flatten ++ separator :: rest) =
      ({ reader with field }.endField separator).run rest := by
  unfold fieldAtoms
  by_cases special : field.any isSpecial = true
  · have opened : reader.step quote = some { reader with place := .quoted } := by
      rcases begins with begins | begins <;> simp [step, begins]
    rw [if_pos special]
    simp only [List.cons_append, List.flatten_cons, List.flatten_append, List.flatten_nil, List.append_nil,
      List.nil_append, List.append_assoc, run, opened, Option.bind_some]
    rw [run_quoted ends field rest { reader with place := .quoted } rfl]
    simp [fresh, endField]
  · have bytes : (field.map fun byte => [byte]).flatten = field := by
      induction field <;> simp_all
    rw [if_neg special, bytes, run_bare ends field (by simpa using special) rest reader
      (by rcases begins with begins | begins <;> simp [begins])
      (by rcases begins with begins | begins <;> simp [begins])]
    simp [fresh]

/-! ## Reading records -/

theorem run_fieldsAtoms (fields : List Bytes) (something : fields ≠ []) (rest : Bytes) : ∀ reader : Reader,
    reader.field = [] → (reader.place = .recordStart ∨ reader.place = .fieldStart) →
    reader.run ((fieldsAtoms fields).flatten ++ newline :: rest) =
      run ⟨reader.records ++ [reader.fields ++ fields], [], [], .recordStart⟩ rest := by
  induction fields with
  | nil => contradiction
  | cons field others ih =>
    intro reader fresh begins
    cases others with
    | nil =>
      rw [fieldsAtoms, run_fieldAtoms (.inr rfl) field rest fresh begins]
      simp [endField]
    | cons next more =>
      rw [fieldsAtoms, List.flatten_append, List.flatten_cons, List.append_assoc, List.append_assoc,
        List.singleton_append, run_fieldAtoms (.inl rfl) field _ fresh begins,
        ih (by simp) _ (by simp [endField, comma, newline]) (by simp [endField, comma, newline])]
      · simp [endField, comma, newline]
      · simp

theorem run_record (fields : List Text) (something : fields ≠ []) (records : List (List Bytes)) (rest : Bytes) :
    run ⟨records, [], [], .recordStart⟩ (record fields ++ rest) =
      run ⟨records ++ [fields.map Utf8.encode], [], [], .recordStart⟩ rest := by
  have encoded : fields.map Utf8.encode ≠ [] := by simpa using something
  rw [record, recordAtoms, List.flatten_append, List.append_assoc,
    show [[newline]].flatten ++ rest = newline :: rest from rfl, run_fieldsAtoms _ encoded rest _ rfl (.inl rfl)]
  rfl

theorem run_flatMap_record (table : List (List Text)) (something : ∀ fields ∈ table, fields ≠ []) :
    ∀ records, run ⟨records, [], [], .recordStart⟩ (table.flatMap record) =
      some ⟨records ++ table.map (·.map Utf8.encode), [], [], .recordStart⟩ := by
  induction table with
  | nil => intro records; simp [run]
  | cons fields rest ih =>
    intro records
    rw [List.flatMap_cons, run_record fields (something fields List.mem_cons_self),
      ih (fun other member => something other (List.mem_cons_of_mem _ member))]
    simp

end Reader

@[simp] theorem mapM_decode?_encode (fields : List Text) : (fields.map Utf8.encode).mapM Utf8.decode? = some fields := by
  induction fields with
  | nil => rfl
  | cons field rest ih => simp [List.mapM_cons, ih]

@[simp] theorem texts?_encode (table : List (List Text)) : texts? (table.map (·.map Utf8.encode)) = some table := by
  unfold texts?
  induction table with
  | nil => rfl
  | cons fields rest ih =>
    rw [List.map_cons, List.mapM_cons, mapM_decode?_encode, ih]
    rfl

theorem read?_flatMap_record (table : List (List Text)) (something : ∀ fields ∈ table, fields ≠ []) :
    read? (table.flatMap record) = some table := by
  rw [read?, Reader.start, Reader.run_flatMap_record table something, List.nil_append, Option.bind_some]
  exact texts?_encode table

end Cadence.Csv
