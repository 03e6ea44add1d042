import Cadence.Text

/-!
Trimming takes the white space off both ends and nothing else: what is left has no white space at its ends
(`Text.isTrimmed_trim`), and the text is that between two stretches of white space (`Text.isPadded_trim`). No other text
is so left (`Text.trim_of_isPadded`).
-/

namespace Cadence.Text

variable {text inner : Text} {c : Char}

/-- There is no white space at either end. -/
def IsTrimmed (text : Text) : Prop :=
  (∀ c, text.head? = some c → Unicode.isWhiteSpace c = false) ∧
    ∀ c, text.getLast? = some c → Unicode.isWhiteSpace c = false

instance (text : Text) : Decidable text.IsTrimmed :=
  decidable_of_iff ((text.head?.all fun c => !Unicode.isWhiteSpace c) ∧ text.getLast?.all fun c => !Unicode.isWhiteSpace c)
    (by simp [IsTrimmed, Option.all_eq_true])

/-- The text stands between two stretches of white space, either of which may be empty. -/
def IsPadded (text inner : Text) : Prop :=
  ∃ front back : Text, front.isBlank = true ∧ back.isBlank = true ∧ text = front ++ inner ++ back

theorem isBlank_iff : text.isBlank = true ↔ ∀ c ∈ text, Unicode.isWhiteSpace c = true := List.all_eq_true

theorem not_mem_of_isBlank (blank : text.isBlank = true) (dark : Unicode.isWhiteSpace c = false) : c ∉ text := by
  intro member
  rw [isBlank_iff.mp blank c member] at dark
  contradiction

/-- White space in front of a text that does not begin with any is what skipping takes away. -/
theorem dropWhile_padded {front : Text} (blank : front.isBlank = true)
    (begins : ∀ c, inner.head? = some c → Unicode.isWhiteSpace c = false) :
    (front ++ inner).dropWhile Unicode.isWhiteSpace = inner := by
  rw [List.dropWhile_append_of_pos (isBlank_iff.mp blank)]
  cases inner with
  | nil => rfl
  | cons c rest => exact List.dropWhile_cons_of_neg (by simp [begins c rfl])

theorem trim_of_isPadded (trimmed : IsTrimmed inner) (padded : IsPadded text inner) : trim text = inner := by
  obtain ⟨front, back, blankFront, blankBack, rfl⟩ := padded
  have reversed : isBlank back.reverse = true := by rwa [isBlank, List.all_reverse]
  cases inner with
  | nil =>
    have blank : (front ++ back : Text).isBlank = true := by
      rw [isBlank, List.all_append]
      exact Bool.and_eq_true_iff.mpr ⟨blankFront, blankBack⟩
    have nothing : (front ++ back ++ []).dropWhile Unicode.isWhiteSpace = [] := dropWhile_padded blank nofun
    rw [List.append_nil] at nothing
    rw [List.append_nil, trim, nothing]
    rfl
  | cons c rest =>
    have begins : ∀ d, (c :: rest ++ back).head? = some d → Unicode.isWhiteSpace d = false := trimmed.1
    have ends : ∀ d, (c :: rest).reverse.head? = some d → Unicode.isWhiteSpace d = false := by
      simpa only [List.head?_reverse] using trimmed.2
    rw [trim, List.append_assoc, dropWhile_padded blankFront begins, dropEndWhile, List.reverse_append,
      dropWhile_padded reversed ends, List.reverse_reverse]

theorem isPadded_trim (text : Text) : IsPadded text (trim text) := by
  generalize inside : text.dropWhile Unicode.isWhiteSpace = rest
  refine ⟨text.takeWhile Unicode.isWhiteSpace, (rest.reverse.takeWhile Unicode.isWhiteSpace).reverse, ?_, ?_, ?_⟩
  · exact List.all_takeWhile
  · rw [isBlank, List.all_reverse]
    exact List.all_takeWhile
  · rw [trim, inside, dropEndWhile, List.append_assoc, ← List.reverse_append, List.takeWhile_append_dropWhile,
      List.reverse_reverse, ← inside, List.takeWhile_append_dropWhile]

theorem isTrimmed_trim (text : Text) : IsTrimmed (trim text) := by
  generalize inside : text.dropWhile Unicode.isWhiteSpace = rest
  have same : trim text = (rest.reverse.dropWhile Unicode.isWhiteSpace).reverse := by rw [trim, inside, dropEndWhile]
  rw [same]
  constructor
  · intro c first
    -- what trimming the end leaves is a front of the rest, which begins with no white space
    obtain ⟨tail, whole⟩ : ∃ tail, rest = (rest.reverse.dropWhile Unicode.isWhiteSpace).reverse ++ tail := by
      refine ⟨(rest.reverse.takeWhile Unicode.isWhiteSpace).reverse, ?_⟩
      rw [← List.reverse_append, List.takeWhile_append_dropWhile, List.reverse_reverse]
    have begins : rest.head? = some c := by
      rw [whole, List.head?_append, first, Option.some_or]
    have stopped := List.head?_dropWhile_not Unicode.isWhiteSpace text
    rw [inside, begins] at stopped
    simpa using stopped
  · intro c last
    rw [List.getLast?_reverse] at last
    have stopped := List.head?_dropWhile_not Unicode.isWhiteSpace rest.reverse
    rw [last] at stopped
    simpa using stopped

theorem IsTrimmed.exists_dark (trimmed : IsTrimmed text) (something : text ≠ []) :
    ∃ c ∈ text, Unicode.isWhiteSpace c = false := by
  obtain ⟨c, rest, rfl⟩ := List.exists_cons_of_ne_nil something
  exact ⟨c, List.mem_cons_self, trimmed.1 c rfl⟩

end Cadence.Text
