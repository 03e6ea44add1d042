import Cadence.Sample
import Cadence.Proofs.Text.Pieces

/-!
What a line carries, said without the order in which it is looked for. Up to its first newline the line is
a stamp, any text, ` height=`, digits, a space and any text; where it can be taken apart so in several
ways, the one with the longest text before the label counts (`Marked.Carries`). Reading a line finds
exactly this (`Marked.ofLine?_eq_some_iff`).
-/

namespace Cadence.Marked

/-- The text has the shape of a stamp. -/
def IsStamp (stamp : Text) : Prop :=
  stamp.length = stampShape.length ∧ ∀ pair ∈ stampShape.zip stamp, fits pair.1 pair.2 = true

/-- The text is a run of digits of any script. -/
def IsHeight (height : Text) : Prop :=
  height ≠ [] ∧ ∀ c ∈ height, Unicode.isDecimalDigit c = true

/-- The text is `before`, the label, the height and a space, whatever comes then. -/
def MarksAfter (text before height : Text) : Prop :=
  IsHeight height ∧ ∃ after, text = before ++ label ++ height ++ ' ' :: after

/-- The line carries this stamp and, behind the longest possible text, this height. -/
def Carries (line : Text) (marked : Marked) : Prop :=
  IsStamp marked.stamp ∧ ∃ rest, line.takeWhile (· ≠ '\n') = marked.stamp ++ rest ∧
    ∃ before, MarksAfter rest before marked.height ∧
      ∀ other height, MarksAfter rest other height → other.length ≤ before.length

/-! ## The stamp -/

theorem takeShape?_eq_some_iff (shape : Text) : ∀ {text front rest : Text},
    takeShape? shape text = some (front, rest) ↔
      text = front ++ rest ∧ front.length = shape.length ∧ ∀ pair ∈ shape.zip front, fits pair.1 pair.2 = true := by
  induction shape with
  | nil =>
    intro text front rest
    rw [takeShape?, List.length_nil, List.length_eq_zero_iff]
    constructor
    · rintro ⟨⟩
      simp
    · rintro ⟨rfl, rfl, _⟩
      simp
  | cons mark shapes ih =>
    intro text front rest
    cases text with
    | nil =>
      rw [takeShape?]
      constructor
      · rintro ⟨⟩
      · rintro ⟨nothing, long, _⟩
        rw [(List.append_eq_nil_iff.mp nothing.symm).1] at long
        contradiction
    | cons c tail =>
      rw [takeShape?]
      constructor
      · intro taken
        split at taken
        · rename_i fitting
          obtain ⟨⟨parts, left⟩, inner, same⟩ := Option.map_eq_some_iff.mp taken
          obtain ⟨whole, long, all⟩ := ih.mp inner
          simp only [Prod.mk.injEq] at same
          obtain ⟨rfl, rfl⟩ := same
          refine ⟨by simp [whole], by simp [long], ?_⟩
          simpa [fitting] using fun a b member => all (a, b) member
        · contradiction
      · rintro ⟨whole, long, all⟩
        cases front with
        | nil => contradiction
        | cons d more =>
          obtain ⟨rfl, tailWhole⟩ := List.cons.inj whole
          have fitting : fits mark c = true := all (mark, c) (by simp)
          have inner := ih.mpr ⟨tailWhole, by simpa using long, fun pair member => all pair (by simp [member])⟩
          rw [if_pos fitting, inner]
          rfl

/-! ## The height -/

private theorem space_not_digit : Unicode.isDecimalDigit ' ' = false := by decide

/-- Digits up to a space are the run that is taken. -/
private theorem takeWhile_digits {height : Text} (digits : ∀ c ∈ height, Unicode.isDecimalDigit c = true)
    (after : Text) : (height ++ ' ' :: after).takeWhile Unicode.isDecimalDigit = height ∧
      (height ++ ' ' :: after).dropWhile Unicode.isDecimalDigit = ' ' :: after := by
  rw [List.takeWhile_append_of_pos digits, List.dropWhile_append_of_pos digits]
  simp [space_not_digit]

theorem heightHere?_eq_some_iff {text height : Text} :
    heightHere? text = some height ↔ MarksAfter text [] height := by
  unfold heightHere? MarksAfter IsHeight
  constructor
  · intro found
    cases labelled : label.isPrefixOf? text with
    | none => simp [labelled] at found
    | some rest =>
      simp only [labelled] at found
      split at found
      · rename_i good
        simp only [Bool.and_eq_true, Bool.not_eq_eq_eq_not, Bool.not_true, decide_eq_true_eq,
          List.isEmpty_eq_false_iff] at good
        obtain ⟨after, behind⟩ := List.head?_eq_some_iff.mp good.2
        obtain rfl := Option.some.inj found
        refine ⟨⟨good.1, fun c member => List.all_eq_true.mp List.all_takeWhile c member⟩, after, ?_⟩
        rw [(isPrefixOf?_eq_some_iff label).mp labelled, List.nil_append, List.append_assoc, ← behind,
          List.takeWhile_append_dropWhile]
      · contradiction
  · rintro ⟨⟨something, digits⟩, after, whole⟩
    obtain ⟨taken, left⟩ := takeWhile_digits digits after
    rw [List.nil_append, List.append_assoc] at whole
    rw [(isPrefixOf?_eq_some_iff label).mpr whole]
    simp [taken, left, something]

theorem marksAfter_cons {c : Char} {text before height : Text} :
    MarksAfter (c :: text) (c :: before) height ↔ MarksAfter text before height := by
  simp [MarksAfter]

/-- A marker in a text is one that begins it or one behind its first character. -/
theorem marksAfter_cons_iff {c : Char} {text before height : Text} :
    MarksAfter (c :: text) before height ↔
      (before = [] ∧ MarksAfter (c :: text) [] height) ∨ ∃ less, before = c :: less ∧ MarksAfter text less height := by
  constructor
  · intro marks
    cases before with
    | nil => exact .inl ⟨rfl, marks⟩
    | cons d less =>
      have same : d = c := by
        obtain ⟨_, after, whole⟩ := marks
        exact (List.cons.inj whole).1.symm
      subst same
      exact .inr ⟨less, rfl, marksAfter_cons.mp marks⟩
  · rintro (⟨rfl, marks⟩ | ⟨less, rfl, marks⟩)
    · exact marks
    · exact marksAfter_cons.mpr marks

theorem marksAfter_unique {text before height other : Text} (first : MarksAfter text before height)
    (second : MarksAfter text before other) : height = other := by
  obtain ⟨⟨_, digits⟩, after, whole⟩ := first
  obtain ⟨⟨_, moreDigits⟩, moreAfter, moreWhole⟩ := second
  have same : height ++ ' ' :: after = other ++ ' ' :: moreAfter := by
    rw [whole, List.append_assoc (before ++ label), List.append_assoc (before ++ label)] at moreWhole
    exact List.append_cancel_left moreWhole
  have taken := (takeWhile_digits digits after).1
  rw [same, (takeWhile_digits moreDigits moreAfter).1] at taken
  exact taken.symm

theorem lastHeight?_eq_none_iff {text : Text} :
    lastHeight? text = none ↔ ∀ before height, ¬ MarksAfter text before height := by
  induction text with
  | nil => simp [lastHeight?, MarksAfter]
  | cons c rest ih =>
    rw [lastHeight?]
    constructor
    · intro nothing before height marks
      cases later : lastHeight? rest with
      | some found => simp [later] at nothing
      | none =>
        simp only [later] at nothing
        rcases marksAfter_cons_iff.mp marks with ⟨rfl, here⟩ | ⟨less, rfl, behind⟩
        · rw [heightHere?_eq_some_iff.mpr here] at nothing
          contradiction
        · exact ih.mp later less height behind
    · intro unmarked
      have later : lastHeight? rest = none :=
        ih.mpr fun before height marks => unmarked (c :: before) height (marksAfter_cons.mpr marks)
      rw [later]
      cases here : heightHere? (c :: rest) with
      | none => rfl
      | some height => exact absurd (heightHere?_eq_some_iff.mp here) (unmarked [] height)

theorem lastHeight?_eq_some_iff {text height : Text} :
    lastHeight? text = some height ↔ ∃ before, MarksAfter text before height ∧
      ∀ other further, MarksAfter text other further → other.length ≤ before.length := by
  induction text generalizing height with
  | nil => simp [lastHeight?, MarksAfter]
  | cons c rest ih =>
    rw [lastHeight?]
    cases later : lastHeight? rest with
    | some found =>
      obtain ⟨before, marks, longest⟩ := ih.mp later
      have bound : ∀ other further, MarksAfter (c :: rest) other further → other.length ≤ (c :: before).length := by
        intro other further otherMarks
        rcases marksAfter_cons_iff.mp otherMarks with ⟨rfl, _⟩ | ⟨less, rfl, behind⟩
        · exact Nat.zero_le _
        · exact Nat.succ_le_succ (longest less further behind)
      constructor
      · rintro ⟨⟩
        exact ⟨c :: before, marksAfter_cons.mpr marks, bound⟩
      · rintro ⟨front, frontMarks, frontLongest⟩
        have atLeast := frontLongest (c :: before) found (marksAfter_cons.mpr marks)
        rcases marksAfter_cons_iff.mp frontMarks with ⟨rfl, _⟩ | ⟨less, rfl, behind⟩
        · simp at atLeast
        · have lengths : less.length = before.length :=
            Nat.le_antisymm (longest less height behind) (by simpa using atLeast)
          obtain ⟨_, after, whole⟩ := id marks
          obtain ⟨_, otherAfter, otherWhole⟩ := id behind
          have same : less = before := by
            rw [whole, List.append_assoc, List.append_assoc, List.append_assoc, List.append_assoc] at otherWhole
            exact (List.append_inj otherWhole lengths.symm).1.symm
          subst same
          rw [marksAfter_unique behind marks]
    | none =>
      have none := lastHeight?_eq_none_iff.mp later
      simp only
      rw [heightHere?_eq_some_iff]
      constructor
      · intro here
        refine ⟨[], here, ?_⟩
        intro other further otherMarks
        rcases marksAfter_cons_iff.mp otherMarks with ⟨rfl, _⟩ | ⟨less, _, behind⟩
        · exact Nat.le_refl _
        · exact absurd behind (none less further)
      · rintro ⟨before, marks, _⟩
        rcases marksAfter_cons_iff.mp marks with ⟨rfl, here⟩ | ⟨less, _, behind⟩
        · exact here
        · exact absurd behind (none less height)

/-! ## Lines -/

theorem ofLine?_eq_some_iff {line : Text} {marked : Marked} :
    ofLine? line = some marked ↔ Carries line marked := by
  unfold ofLine? Carries
  constructor
  · intro found
    obtain ⟨⟨stamp, rest⟩, taken, inner⟩ := Option.bind_eq_some_iff.mp found
    obtain ⟨height, last, rfl⟩ := Option.map_eq_some_iff.mp inner
    obtain ⟨whole, long, fitting⟩ := (takeShape?_eq_some_iff stampShape).mp taken
    exact ⟨⟨long, fitting⟩, rest, whole, lastHeight?_eq_some_iff.mp last⟩
  · rintro ⟨⟨long, fitting⟩, rest, whole, last⟩
    rw [(takeShape?_eq_some_iff stampShape).mpr ⟨whole, long, fitting⟩, Option.bind_some,
      lastHeight?_eq_some_iff.mpr last]
    rfl

end Cadence.Marked
