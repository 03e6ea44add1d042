import Cadence.Text

/-!
The pieces between the occurrences of a separator: there is always one, none of them holds the separator, and a
separator parts the pieces before it from those behind it. A cut at the first separator leaves what stands on
both sides of it.
-/

namespace Cadence

variable {α : Type} [DecidableEq α]

theorem pieces_ne_nil (separator : α) (xs : List α) : pieces separator xs ≠ [] := by
  cases xs with
  | nil => simp [pieces]
  | cons x rest =>
    rw [pieces]
    split
    · simp
    · split <;> simp

@[simp] theorem pieces_cons_self (separator : α) (rest : List α) :
    pieces separator (separator :: rest) = [] :: pieces separator rest := by
  simp [pieces]

theorem pieces_cons_of_ne {separator x : α} {rest first : List α} {others : List (List α)} (other : x ≠ separator)
    (after : pieces separator rest = first :: others) :
    pieces separator (x :: rest) = (x :: first) :: others := by
  rw [pieces, if_neg other, after]

@[simp] theorem pieces_of_not_mem {separator : α} {xs : List α} (free : separator ∉ xs) : pieces separator xs = [xs] := by
  induction xs with
  | nil => rfl
  | cons x rest ih =>
    simp only [List.mem_cons, not_or] at free
    exact pieces_cons_of_ne (Ne.symm free.1) (ih free.2)

/-- What holds no separator makes the first piece longer. -/
theorem pieces_append_of_not_mem {separator : α} {front xs first : List α} {others : List (List α)}
    (free : separator ∉ front) (after : pieces separator xs = first :: others) :
    pieces separator (front ++ xs) = (front ++ first) :: others := by
  induction front with
  | nil => exact after
  | cons x rest ih =>
    simp only [List.mem_cons, not_or] at free
    exact pieces_cons_of_ne (Ne.symm free.1) (ih free.2)

theorem not_mem_of_mem_pieces {separator : α} {xs : List α} : ∀ piece ∈ pieces separator xs, separator ∉ piece := by
  induction xs with
  | nil => simp [pieces]
  | cons x rest ih =>
    obtain ⟨first, others, after⟩ := List.exists_cons_of_ne_nil (pieces_ne_nil separator rest)
    rw [after] at ih
    intro piece member
    by_cases same : x = separator
    · rw [same, pieces_cons_self, after] at member
      rcases List.mem_cons.mp member with rfl | member
      · exact List.not_mem_nil
      · exact ih piece member
    · rw [pieces_cons_of_ne same after] at member
      rcases List.mem_cons.mp member with rfl | member
      · rw [List.mem_cons, not_or]
        exact ⟨Ne.symm same, ih first List.mem_cons_self⟩
      · exact ih piece (List.mem_cons_of_mem _ member)

theorem mem_of_mem_pieces {separator x : α} {xs : List α} : ∀ piece ∈ pieces separator xs, x ∈ piece → x ∈ xs := by
  induction xs with
  | nil => simp [pieces]
  | cons y rest ih =>
    obtain ⟨first, others, after⟩ := List.exists_cons_of_ne_nil (pieces_ne_nil separator rest)
    rw [after] at ih
    intro piece isPiece member
    by_cases same : y = separator
    · rw [same, pieces_cons_self, after] at isPiece
      rcases List.mem_cons.mp isPiece with rfl | isPiece
      · cases member
      · exact List.mem_cons_of_mem _ (ih piece isPiece member)
    · rw [pieces_cons_of_ne same after] at isPiece
      rcases List.mem_cons.mp isPiece with rfl | isPiece
      · rcases List.mem_cons.mp member with rfl | member
        · exact List.mem_cons_self
        · exact List.mem_cons_of_mem _ (ih first List.mem_cons_self member)
      · exact List.mem_cons_of_mem _ (ih piece (List.mem_cons_of_mem _ isPiece) member)

theorem exists_mem_pieces {separator x : α} {xs : List α} (other : x ≠ separator) (member : x ∈ xs) :
    ∃ piece ∈ pieces separator xs, x ∈ piece := by
  induction xs with
  | nil => cases member
  | cons y rest ih =>
    obtain ⟨first, others, after⟩ := List.exists_cons_of_ne_nil (pieces_ne_nil separator rest)
    rw [after] at ih
    by_cases same : y = separator
    · rw [same, pieces_cons_self, after]
      have inside := (List.mem_cons.mp member).resolve_left (by rwa [same])
      obtain ⟨piece, isPiece, inPiece⟩ := ih inside
      exact ⟨piece, List.mem_cons_of_mem _ isPiece, inPiece⟩
    · rw [pieces_cons_of_ne same after]
      rcases List.mem_cons.mp member with rfl | inside
      · exact ⟨_, List.mem_cons_self, List.mem_cons_self⟩
      · obtain ⟨piece, isPiece, inPiece⟩ := ih inside
        rcases List.mem_cons.mp isPiece with rfl | isPiece
        · exact ⟨_, List.mem_cons_self, List.mem_cons_of_mem _ inPiece⟩
        · exact ⟨piece, List.mem_cons_of_mem _ isPiece, inPiece⟩

@[simp] theorem pieces_append_cons (separator : α) (before rest : List α) :
    pieces separator (before ++ separator :: rest) = pieces separator before ++ pieces separator rest := by
  induction before with
  | nil => exact pieces_cons_self separator rest
  | cons x tail ih =>
    obtain ⟨first, others, after⟩ := List.exists_cons_of_ne_nil (pieces_ne_nil separator tail)
    rw [after] at ih
    by_cases same : x = separator
    · rw [same, List.cons_append, pieces_cons_self, pieces_cons_self, ih, after]
      rfl
    · rw [List.cons_append, pieces_cons_of_ne same ih, pieces_cons_of_ne same after]
      rfl

theorem pieces_intercalate {separator : α} {all : List (List α)} (some : all ≠ [])
    (plain : ∀ piece ∈ all, separator ∉ piece) : pieces separator (List.intercalate [separator] all) = all := by
  induction all with
  | nil => contradiction
  | cons first rest ih =>
    have here := plain first List.mem_cons_self
    cases rest with
    | nil => rw [List.intercalate_singleton, pieces_of_not_mem here]
    | cons second more =>
      have inner := ih (List.cons_ne_nil _ _) fun piece member => plain piece (List.mem_cons_of_mem _ member)
      have joined : List.intercalate [separator] (first :: second :: more) =
          first ++ separator :: List.intercalate [separator] (second :: more) := by
        rw [List.intercalate_cons_cons]
        simp
      rw [joined, pieces_append_cons, pieces_of_not_mem here, inner]
      rfl

/-- A list begins with the separator where the first of several pieces is empty. -/
theorem head?_eq_separator_iff {separator : α} {xs : List α} :
    xs.head? = some separator ↔ ∃ second rest, pieces separator xs = [] :: second :: rest := by
  cases xs with
  | nil => simp [pieces]
  | cons x tail =>
    obtain ⟨first, others, after⟩ := List.exists_cons_of_ne_nil (pieces_ne_nil separator tail)
    by_cases same : x = separator
    · rw [same, pieces_cons_self, after]
      simp
    · rw [pieces_cons_of_ne same after]
      simp [same]

private theorem single_piece_ne_nil {separator y : α} {tail first : List α}
    (single : pieces separator (y :: tail) = [first]) : first ≠ [] := by
  rintro rfl
  obtain ⟨second, others, after⟩ := List.exists_cons_of_ne_nil (pieces_ne_nil separator tail)
  by_cases same : y = separator
  · rw [same, pieces_cons_self, after] at single
    simp at single
  · rw [pieces_cons_of_ne same after] at single
    simp at single

/-- The last piece is empty where the separator ends the list, or where there is nothing at all. -/
theorem getLast?_pieces_eq_nil_iff {separator : α} {xs : List α} :
    (pieces separator xs).getLast? = some [] ↔ xs = [] ∨ xs.getLast? = some separator := by
  induction xs with
  | nil => simp [pieces]
  | cons x rest ih =>
    obtain ⟨first, others, after⟩ := List.exists_cons_of_ne_nil (pieces_ne_nil separator rest)
    rw [after] at ih
    by_cases same : x = separator
    · rw [same, pieces_cons_self, after, List.getLast?_cons_cons, ih]
      cases rest with
      | nil => simp
      | cons y tail => simp [List.getLast?_cons_cons]
    · rw [pieces_cons_of_ne same after]
      cases others with
      | nil =>
        cases rest with
        | nil => simpa using same
        | cons y tail =>
          simpa [single_piece_ne_nil after, List.getLast?_cons_cons] using ih
      | cons second more =>
        cases rest with
        | nil => simp [pieces] at after
        | cons y tail => simpa [List.getLast?_cons_cons] using ih

theorem cutAtFirst_eq_some_iff {separator : α} {xs : List α} : ∀ {front rest : List α},
    cutAtFirst separator xs = some (front, rest) ↔ xs = front ++ separator :: rest ∧ separator ∉ front := by
  induction xs with
  | nil => intro front rest; simp [cutAtFirst]
  | cons x tail ih =>
    intro front rest
    rw [cutAtFirst]
    by_cases same : x = separator
    · rw [if_pos same]
      cases front with
      | nil => simp [same]
      | cons y front =>
        have apart : x = y → separator ∈ y :: front := fun is => by simp [← is, same]
        simp only [Option.some.injEq, Prod.mk.injEq, List.cons_append, List.cons.injEq]
        exact ⟨nofun, fun whole => absurd (apart whole.1.1) whole.2⟩
    · rw [if_neg same, Option.map_eq_some_iff]
      cases front with
      | nil => simp [same]
      | cons y front =>
        have other : separator ≠ x := Ne.symm same
        constructor
        · rintro ⟨⟨_, _⟩, cut, is⟩
          cases is
          obtain ⟨rfl, free⟩ := ih.mp cut
          exact ⟨rfl, by simp [other, free]⟩
        · rintro ⟨whole, free⟩
          cases whole
          exact ⟨(front, rest), ih.mpr ⟨rfl, fun member => free (List.mem_cons_of_mem _ member)⟩, rfl⟩

theorem isPrefixOf?_eq_some_iff (front : List α) : ∀ {xs rest : List α},
    front.isPrefixOf? xs = some rest ↔ xs = front ++ rest := by
  induction front with
  | nil =>
    intro xs rest
    show some xs = some rest ↔ _
    simp
  | cons c more ih =>
    intro xs rest
    cases xs with
    | nil =>
      show none = some rest ↔ _
      simp
    | cons d tail =>
      show (if c == d then more.isPrefixOf? tail else none) = some rest ↔ _
      by_cases same : c = d
      · subst same
        simp [ih]
      · simp [same, Ne.symm same]

end Cadence
