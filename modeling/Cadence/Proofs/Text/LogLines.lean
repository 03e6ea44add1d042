import Cadence.Proofs.Text.Replacement
import Cadence.Proofs.Text.UniversalNewlines

/-!
The lines of a log, said by what they make when they are put together again: the text of the log is its pieces with an
end of a line between any two of them (`Text.IsCutInto`), and the lines are these pieces but for a last one that is
empty (`Lines.ofBytes_eq_iff`). Neither the decoder nor the cutting of bytes has a part in this.
-/

namespace Cadence

namespace Text

/-- The text is these pieces with an end of a line behind each but the last: `\r\n`, `\n` or a `\r` that no `\n`
follows. -/
inductive IsCutInto : Text → List Text → Prop
  | last {piece : Text} : Unbroken '\r' '\n' piece → IsCutInto piece [piece]
  | lf {piece rest : Text} {pieces : List Text} :
      Unbroken '\r' '\n' piece → IsCutInto rest pieces → IsCutInto (piece ++ '\n' :: rest) (piece :: pieces)
  | crlf {piece rest : Text} {pieces : List Text} :
      Unbroken '\r' '\n' piece → IsCutInto rest pieces → IsCutInto (piece ++ '\r' :: '\n' :: rest) (piece :: pieces)
  | cr {piece rest : Text} {pieces : List Text} : Unbroken '\r' '\n' piece → rest.head? ≠ some '\n' →
      IsCutInto rest pieces → IsCutInto (piece ++ '\r' :: rest) (piece :: pieces)

theorem IsCutInto.unbroken {text : Text} {pieces : List Text} (cut : text.IsCutInto pieces) :
    ∀ piece ∈ pieces, Unbroken '\r' '\n' piece := by
  induction cut with
  | last unbroken => simpa using unbroken
  | lf unbroken _ ih => simpa using ⟨unbroken, ih⟩
  | crlf unbroken _ ih => simpa using ⟨unbroken, ih⟩
  | cr unbroken _ _ ih => simpa using ⟨unbroken, ih⟩

theorem linePieces_of_isCutInto {text : Text} {pieces : List Text} (cut : text.IsCutInto pieces) :
    linePieces '\r' '\n' text = pieces := by
  induction cut with
  | last unbroken => exact linePieces_unbroken unbroken
  | lf unbroken _ ih => rw [linePieces_unbroken_append unbroken (linePieces_lf (by decide) _), List.append_nil, ih]
  | crlf unbroken _ ih => rw [linePieces_unbroken_append unbroken (linePieces_crlf _), List.append_nil, ih]
  | cr unbroken other _ ih => rw [linePieces_unbroken_append unbroken (linePieces_cr other), List.append_nil, ih]

theorem isCutInto_linePieces (text : Text) : text.IsCutInto (linePieces '\r' '\n' text) := by
  cases firstLine '\r' '\n' text with
  | only unbroken =>
    rw [linePieces_unbroken unbroken]
    exact .last unbroken
  | lf before rest unbroken =>
    rw [linePieces_unbroken_append unbroken (linePieces_lf (by decide) rest), List.append_nil]
    exact .lf unbroken (isCutInto_linePieces rest)
  | crlf before rest unbroken =>
    rw [linePieces_unbroken_append unbroken (linePieces_crlf rest), List.append_nil]
    exact .crlf unbroken (isCutInto_linePieces rest)
  | cr before rest unbroken other =>
    rw [linePieces_unbroken_append unbroken (linePieces_cr other), List.append_nil]
    exact .cr unbroken other (isCutInto_linePieces rest)
termination_by text.length

theorem isCutInto_iff {text : Text} {pieces : List Text} : text.IsCutInto pieces ↔ linePieces '\r' '\n' text = pieces := by
  constructor
  · exact linePieces_of_isCutInto
  · rintro rfl
    exact isCutInto_linePieces text

end Text

theorem withoutEmptyLast_eq_iff {α : Type} [DecidableEq α] {all kept : List (List α)} :
    withoutEmptyLast all = kept ↔ (all = kept ∧ all.getLast? ≠ some []) ∨ all = kept ++ [[]] := by
  unfold withoutEmptyLast
  by_cases last : all.getLast? = some []
  · obtain ⟨front, rfl⟩ := List.getLast?_eq_some_iff.mp last
    simp
  · have other : all ≠ kept ++ [[]] := by
      rintro rfl
      simp at last
    simp [last, other]

namespace Lines

/-- The lines of a log are the pieces that the ends of lines cut its text into, less a last one that is empty. None of
them holds a character that ends a line. -/
theorem ofBytes_eq_iff (bytes : Bytes) :
    (∀ lines, ofBytes bytes = lines ↔ ∃ text pieces, Utf8.DecodesTo bytes text ∧ text.IsCutInto pieces ∧
      ((pieces = lines ∧ pieces.getLast? ≠ some []) ∨ pieces = lines ++ [[]])) ∧
    ∀ line ∈ ofBytes bytes, '\r' ∉ line ∧ '\n' ∉ line := by
  have cut : ∀ lines, ofBytes bytes = lines ↔ ∃ text pieces, Utf8.DecodesTo bytes text ∧ text.IsCutInto pieces ∧
      ((pieces = lines ∧ pieces.getLast? ≠ some []) ∨ pieces = lines ++ [[]]) := by
    intro lines
    simp only [ofBytes_eq_lines, Text.lines, withoutEmptyLast_eq_iff, Utf8.decodesTo_iff, Text.isCutInto_iff]
    simp
  refine ⟨cut, ?_⟩
  intro line member
  obtain ⟨text, pieces, _, isCut, ⟨same, _⟩ | same⟩ := (cut _).mp rfl
  · exact isCut.unbroken line (same ▸ member)
  · exact isCut.unbroken line (same ▸ List.mem_append_left _ member)

/-- Ends of lines of all kinds, with a byte that begins nothing and a character that is cut short beside them. -/
theorem ofBytes_eq_iff_of_mixed_ends :
    let bytes : Bytes := [0x61, 0x0D, 0x0D, 0x0A, 0xFF, 0x0A, 0x0D, 0xE2, 0x82, 0x0D]
    let lines : List Text := [['a'], [], [Utf8.replacement], [], [Utf8.replacement]]
    ofBytes bytes = lines ∧
      (∃ text pieces, Utf8.DecodesTo bytes text ∧ text.IsCutInto pieces ∧
        ((pieces = lines ∧ pieces.getLast? ≠ some []) ∨ pieces = lines ++ [[]])) ∧
      '\r' ∉ ['a'] ∧ '\n' ∉ ['a'] := by
  intro bytes lines
  have cut : ofBytes bytes = lines := by decide
  have member : ['a'] ∈ ofBytes bytes := cut ▸ List.mem_cons_self
  exact ⟨cut, ((ofBytes_eq_iff bytes).1 lines).mp cut, (ofBytes_eq_iff bytes).2 ['a'] member⟩

end Lines

end Cadence
