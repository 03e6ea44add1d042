import Cadence.Lines
import Cadence.Proofs.Text.Encoding
import Cadence.Proofs.Text.Pieces

/-!
Lines of a log, as one scan over its text finds them: the text is cut at every `\r\n`, at every other
`\n` and at every other `\r`, and the last piece counts only if it holds something. The library cuts the
bytes at `\n` first, takes one `\r` off, cuts at `\r` and decodes each piece by itself; the two ways agree
on all bytes (`Lines.ofBytes_eq_lines`). Lines that have their end stay as they are when bytes are added behind
them, even where these begin with the `\n` of a `\r` (`Lines.ofBytes_prefix_append`).
-/

namespace Cadence

section
variable {α : Type} [DecidableEq α]

/-- The pieces between the ends of lines: `cr` followed by `lf`, or one of them alone. -/
def linePieces (cr lf : α) : List α → List (List α)
  | [] => [[]]
  | [x] => if x = cr ∨ x = lf then [[], []] else [[x]]
  | x :: y :: rest =>
    if x = cr ∧ y = lf then [] :: linePieces cr lf rest
    else if x = cr ∨ x = lf then [] :: linePieces cr lf (y :: rest)
    else match linePieces cr lf (y :: rest) with
      | [] => [[x]]
      | first :: others => (x :: first) :: others

/-- The pieces without the last one if it is empty. -/
def withoutEmptyLast (all : List (List α)) : List (List α) :=
  if all.getLast? = some [] then all.dropLast else all

end

/-- The lines of a text. -/
def Text.lines (text : Text) : List Text :=
  withoutEmptyLast (linePieces '\r' '\n' text)

/-! ## Cutting at the ends of lines -/

section
variable {α : Type} [DecidableEq α] {cr lf : α}

theorem linePieces_ne_nil (xs : List α) : linePieces cr lf xs ≠ [] := by
  fun_cases linePieces cr lf xs <;> simp_all

theorem linePieces_lf (distinct : cr ≠ lf) (rest : List α) :
    linePieces cr lf (lf :: rest) = [] :: linePieces cr lf rest := by
  cases rest with
  | nil => simp [linePieces]
  | cons y tail => simp [linePieces, Ne.symm distinct]

@[simp] theorem linePieces_crlf (rest : List α) : linePieces cr lf (cr :: lf :: rest) = [] :: linePieces cr lf rest := by
  simp [linePieces]

theorem linePieces_cr {rest : List α} (other : rest.head? ≠ some lf) :
    linePieces cr lf (cr :: rest) = [] :: linePieces cr lf rest := by
  cases rest with
  | nil => simp [linePieces]
  | cons y tail =>
    have : y ≠ lf := by simpa using other
    simp [linePieces, this]

theorem linePieces_cons {x : α} {rest first : List α} {others : List (List α)} (notCr : x ≠ cr) (notLf : x ≠ lf)
    (after : linePieces cr lf rest = first :: others) :
    linePieces cr lf (x :: rest) = (x :: first) :: others := by
  cases rest with
  | nil => simp_all [linePieces]
  | cons y tail =>
    rw [linePieces, after]
    simp [notCr, notLf]

/-- No character of the list ends a line. -/
def Unbroken (cr lf : α) (xs : List α) : Prop := cr ∉ xs ∧ lf ∉ xs

theorem linePieces_unbroken_append {before first rest : List α} {others : List (List α)} (unbroken : Unbroken cr lf before)
    (after : linePieces cr lf rest = first :: others) :
    linePieces cr lf (before ++ rest) = (before ++ first) :: others := by
  induction before with
  | nil => exact after
  | cons x tail ih =>
    obtain ⟨noCr, noLf⟩ := unbroken
    simp only [List.mem_cons, not_or] at noCr noLf
    exact linePieces_cons (Ne.symm noCr.1) (Ne.symm noLf.1) (ih ⟨noCr.2, noLf.2⟩)

theorem linePieces_unbroken {xs : List α} (unbroken : Unbroken cr lf xs) : linePieces cr lf xs = [xs] := by
  have whole : linePieces cr lf (xs ++ []) = [xs ++ []] := linePieces_unbroken_append unbroken rfl
  simpa using whole

/-- A list up to its first end of a line: it has none, or one of the three kinds. -/
inductive FirstLine (cr lf : α) : List α → Prop
  | only {xs : List α} : Unbroken cr lf xs → FirstLine cr lf xs
  | lf (before rest : List α) : Unbroken cr lf before → FirstLine cr lf (before ++ lf :: rest)
  | crlf (before rest : List α) : Unbroken cr lf before → FirstLine cr lf (before ++ cr :: lf :: rest)
  | cr (before rest : List α) : Unbroken cr lf before → rest.head? ≠ some lf →
      FirstLine cr lf (before ++ cr :: rest)

theorem firstLine (cr lf : α) (xs : List α) : FirstLine cr lf xs := by
  induction xs with
  | nil => exact .only ⟨by simp, by simp⟩
  | cons x rest ih =>
    have none : Unbroken cr lf ([] : List α) := ⟨by simp, by simp⟩
    by_cases isLf : x = lf
    · subst isLf
      exact .lf [] rest none
    · by_cases isCr : x = cr
      · subst isCr
        by_cases next : rest.head? = some lf
        · obtain ⟨tail, rfl⟩ := List.head?_eq_some_iff.mp next
          exact .crlf [] tail none
        · exact .cr [] rest none next
      · have more : ∀ {before : List α}, Unbroken cr lf before → Unbroken cr lf (x :: before) := by
          intro before unbroken
          exact ⟨by simp [Ne.symm isCr, unbroken.1], by simp [Ne.symm isLf, unbroken.2]⟩
        cases ih with
        | only unbroken => exact .only (more unbroken)
        | lf before tail unbroken => exact .lf (x :: before) tail (more unbroken)
        | crlf before tail unbroken => exact .crlf (x :: before) tail (more unbroken)
        | cr before tail unbroken other => exact .cr (x :: before) tail (more unbroken) other

end

/-! ## Two cuts agree with one scan -/

namespace Lines

private theorem distinct : carriageReturn ≠ newline := by decide

private theorem withoutFinalReturn_cons (x y : UInt8) (rest : Bytes) :
    withoutFinalReturn (x :: y :: rest) = x :: withoutFinalReturn (y :: rest) := by
  unfold withoutFinalReturn
  rw [List.getLast?_cons_cons]
  split <;> simp [List.dropLast]

/-- A stretch that `\n` ends gives its pieces between returns, less the return that belongs to the `\n`. -/
theorem linePieces_stretch {stretch : Bytes} (free : newline ∉ stretch) (rest : Bytes) :
    linePieces carriageReturn newline (stretch ++ newline :: rest) =
      ofStretch stretch ++ linePieces carriageReturn newline rest := by
  induction stretch with
  | nil => exact linePieces_lf distinct rest
  | cons x tail ih =>
    simp only [List.mem_cons, not_or] at free
    have after := ih free.2
    cases tail with
    | nil =>
      by_cases isCr : x = carriageReturn
      · subst isCr
        exact linePieces_crlf rest
      · rw [show [x] ++ newline :: rest = x :: newline :: rest from rfl,
          linePieces_cons isCr (Ne.symm free.1) (linePieces_lf distinct rest)]
        simp [ofStretch, withoutFinalReturn, pieces, isCr]
    | cons y more =>
      rw [ofStretch, withoutFinalReturn_cons]
      by_cases isCr : x = carriageReturn
      · subst isCr
        have other : (y :: more ++ newline :: rest).head? ≠ some newline := by
          simp only [List.mem_cons, not_or] at free
          simpa using Ne.symm free.2.1
        rw [List.cons_append, linePieces_cr other, after, pieces_cons_self]
        rfl
      · obtain ⟨first, others, cut⟩ :=
          List.exists_cons_of_ne_nil (pieces_ne_nil carriageReturn (withoutFinalReturn (y :: more)))
        rw [ofStretch, cut] at after
        rw [pieces_cons_of_ne isCr cut]
        exact linePieces_cons isCr (Ne.symm free.1) after

/-- The last stretch, which no `\n` ends. -/
theorem linePieces_lastStretch {stretch : Bytes} (free : newline ∉ stretch) :
    linePieces carriageReturn newline stretch = pieces carriageReturn stretch := by
  induction stretch with
  | nil => rfl
  | cons x tail ih =>
    simp only [List.mem_cons, not_or] at free
    have after := ih free.2
    by_cases isCr : x = carriageReturn
    · subst isCr
      have other : tail.head? ≠ some newline := by
        intro next
        exact free.2 (List.mem_of_head? next)
      rw [linePieces_cr other, pieces_cons_self, after]
    · obtain ⟨first, others, cut⟩ := List.exists_cons_of_ne_nil (pieces_ne_nil carriageReturn tail)
      rw [pieces_cons_of_ne isCr cut]
      exact linePieces_cons isCr (Ne.symm free.1) (after.trans cut)

end Lines

section
variable {α : Type} [DecidableEq α]

theorem withoutEmptyLast_append (front : List (List α)) {all : List (List α)} (something : all ≠ []) :
    withoutEmptyLast (front ++ all) = front ++ withoutEmptyLast all := by
  unfold withoutEmptyLast
  obtain ⟨init, last, rfl⟩ := List.eq_nil_or_concat all |>.resolve_left something
  simp only [List.concat_eq_append, ← List.append_assoc, List.getLast?_concat, List.dropLast_concat]
  split
  · rfl
  · exact List.append_assoc _ _ _

end

namespace Lines

theorem stretches_append_newline {stretch : Bytes} (free : newline ∉ stretch) (rest : Bytes) :
    stretches (stretch ++ newline :: rest) = stretch :: stretches rest := by
  have cut : pieces newline (stretch ++ newline :: rest) = [stretch] ++ pieces newline rest := by
    rw [pieces_append_cons, pieces_of_not_mem free]
  exact (congrArg withoutEmptyLast cut).trans (withoutEmptyLast_append [stretch] (pieces_ne_nil newline rest))

/-- What stands behind the last `\n`: one stretch, or none if it is empty. -/
theorem flatMap_ofStretch_last {stretch : Bytes} (free : newline ∉ stretch) :
    (stretches stretch).flatMap ofStretch = withoutEmptyLast (linePieces carriageReturn newline stretch) := by
  rw [stretches, pieces_of_not_mem free, linePieces_lastStretch free]
  by_cases empty : stretch = []
  · subst empty
    rfl
  · have ends := @getLast?_pieces_eq_nil_iff _ _ carriageReturn stretch
    simp only [List.getLast?_singleton, Option.some.injEq, empty, if_false, List.flatMap_cons, List.flatMap_nil,
      List.append_nil, ofStretch, false_or, withoutFinalReturn, withoutEmptyLast] at ends ⊢
    by_cases returned : stretch.getLast? = some carriageReturn
    · obtain ⟨front, rfl⟩ := List.getLast?_eq_some_iff.mp returned
      simp only [returned, ends.mpr returned, if_true, List.dropLast_concat]
      rw [pieces_append_cons]
      exact List.dropLast_concat.symm
    · rw [if_neg returned, if_neg (fun last => returned (ends.mp last))]

/-- Cutting at `\n`, taking a `\r` off and cutting at `\r` is cutting at the ends of lines. -/
theorem flatMap_ofStretch (bytes : Bytes) :
    (stretches bytes).flatMap ofStretch = withoutEmptyLast (linePieces carriageReturn newline bytes) := by
  by_cases last : newline ∈ bytes
  · obtain ⟨stretch, rest, rfl, free⟩ := List.eq_append_cons_of_mem last
    rw [stretches_append_newline free, linePieces_stretch free, List.flatMap_cons, flatMap_ofStretch rest,
      withoutEmptyLast_append _ (linePieces_ne_nil rest)]
  · exact flatMap_ofStretch_last last
termination_by bytes.length

/-! ## Cutting commutes with decoding -/

theorem unbroken_decode {bytes : Bytes} (unbroken : Unbroken carriageReturn newline bytes) :
    Unbroken '\r' '\n' (Utf8.decode bytes) :=
  ⟨fun found => unbroken.1 (Utf8.mem_of_mem_decode (by decide) (by decide) found),
    fun found => unbroken.2 (Utf8.mem_of_mem_decode (by decide) (by decide) found)⟩

theorem decode_append_newline (before rest : Bytes) :
    Utf8.decode (before ++ newline :: rest) = Utf8.decode before ++ '\n' :: Utf8.decode rest :=
  Utf8.decode_append_ascii before rest (by decide)

theorem decode_append_return (before rest : Bytes) :
    Utf8.decode (before ++ carriageReturn :: rest) = Utf8.decode before ++ '\r' :: Utf8.decode rest :=
  Utf8.decode_append_ascii before rest (by decide)

/-- Bytes that do not begin with `\n` are not decoded to a text that does. -/
private theorem head?_decode {bytes : Bytes} (other : bytes.head? ≠ some newline) :
    (Utf8.decode bytes).head? ≠ some '\n' := by
  have noHead : ∀ {before : Bytes}, Unbroken carriageReturn newline before →
      (Utf8.decode before).head? ≠ some '\n' := by
    intro before unbroken begins
    exact (unbroken_decode unbroken).2 (List.mem_of_head? begins)
  have joined : ∀ {before : Bytes} (c : Char) (rest : Text), Unbroken carriageReturn newline before →
      (before = [] → c ≠ '\n') → (Utf8.decode before ++ c :: rest).head? ≠ some '\n' := by
    intro before c rest unbroken alone
    cases decoded : Utf8.decode before with
    | nil => simpa using alone (Utf8.decode_eq_nil_iff.mp decoded)
    | cons d more =>
      have := noHead unbroken
      rw [decoded] at this
      simpa using this
  cases firstLine carriageReturn newline bytes with
  | only unbroken => exact noHead unbroken
  | lf before rest unbroken =>
    rw [decode_append_newline]
    refine joined _ _ unbroken ?_
    rintro rfl
    simp at other
  | crlf before rest unbroken =>
    rw [decode_append_return]
    exact joined _ _ unbroken (fun _ => by decide)
  | cr before rest unbroken _ =>
    rw [decode_append_return]
    exact joined _ _ unbroken (fun _ => by decide)

theorem linePieces_decode (bytes : Bytes) :
    linePieces '\r' '\n' (Utf8.decode bytes) = (linePieces carriageReturn newline bytes).map Utf8.decode := by
  cases firstLine carriageReturn newline bytes with
  | only unbroken => rw [linePieces_unbroken unbroken, linePieces_unbroken (unbroken_decode unbroken)]; rfl
  | lf before rest unbroken =>
    have cut := linePieces_unbroken_append unbroken (linePieces_lf distinct rest)
    have after := linePieces_lf (show '\r' ≠ '\n' by decide) (Utf8.decode rest)
    rw [decode_append_newline, cut, linePieces_unbroken_append (unbroken_decode unbroken) after,
      linePieces_decode rest]
    simp only [List.map_cons, List.append_nil]
  | crlf before rest unbroken =>
    have cut := linePieces_unbroken_append unbroken (linePieces_crlf rest)
    have after := @linePieces_crlf _ _ '\r' '\n' (Utf8.decode rest)
    have pair := decode_append_newline [] rest
    rw [decode_append_return, show Utf8.decode (newline :: rest) = '\n' :: Utf8.decode rest from pair, cut,
      linePieces_unbroken_append (unbroken_decode unbroken) after, linePieces_decode rest]
    simp only [List.map_cons, List.append_nil]
  | cr before rest unbroken other =>
    have cut := linePieces_unbroken_append unbroken (linePieces_cr other)
    have after := @linePieces_cr _ _ '\r' '\n' _ (head?_decode other)
    rw [decode_append_return, cut, linePieces_unbroken_append (unbroken_decode unbroken) after,
      linePieces_decode rest]
    simp only [List.map_cons, List.append_nil]
termination_by bytes.length

theorem withoutEmptyLast_map_decode (all : List Bytes) :
    withoutEmptyLast (all.map Utf8.decode) = (withoutEmptyLast all).map Utf8.decode := by
  have same : (all.map Utf8.decode).getLast? = some [] ↔ all.getLast? = some [] := by
    simp [List.getLast?_map, Utf8.decode_eq_nil_iff]
  unfold withoutEmptyLast
  rw [apply_ite (List.map Utf8.decode), List.map_dropLast]
  simp only [same]

theorem ofBytes_eq_lines (bytes : Bytes) : ofBytes bytes = Text.lines (Utf8.decode bytes) := by
  rw [ofBytes, flatMap_ofStretch, Text.lines, linePieces_decode, withoutEmptyLast_map_decode]

end Lines

/-! ## Longer logs -/

section
variable {α : Type} {cr lf : α}

/-- The list is empty, or the end of its last line is there. -/
def LinesEnded (cr lf : α) (xs : List α) : Prop :=
  xs = [] ∨ xs.getLast? = some lf ∨ xs.getLast? = some cr

theorem LinesEnded.eq_nil {xs : List α} (ended : LinesEnded cr lf xs) (unbroken : Unbroken cr lf xs) : xs = [] := by
  rcases ended with empty | last | last
  · exact empty
  · exact absurd (List.mem_of_getLast? last) unbroken.2
  · exact absurd (List.mem_of_getLast? last) unbroken.1

theorem LinesEnded.behind {before rest : List α} {x : α} (ended : LinesEnded cr lf (before ++ x :: rest)) :
    LinesEnded cr lf rest := by
  cases rest with
  | nil => exact .inl rfl
  | cons y more =>
    have last : (before ++ x :: y :: more).getLast? = (y :: more).getLast? := by
      rw [List.getLast?_append, List.getLast?_cons_cons, List.getLast?_cons, Option.some_or]
    rw [LinesEnded, last] at ended
    exact .inr (ended.resolve_left (by simp))

variable [DecidableEq α]

/-- What follows ended lines makes further pieces behind theirs. It is cut by itself, but for a `lf` at its beginning
that belongs to a `cr` before it. -/
theorem linePieces_append_of_ended (distinct : cr ≠ lf) (xs rest : List α) (ended : LinesEnded cr lf xs) :
    ∃ front behind, linePieces cr lf xs = front ++ [[]] ∧
      linePieces cr lf (xs ++ rest) = front ++ linePieces cr lf behind := by
  cases firstLine cr lf xs with
  | only unbroken =>
    obtain rfl := ended.eq_nil unbroken
    exact ⟨[], rest, rfl, rfl⟩
  | lf before tail unbroken =>
    obtain ⟨front, behind, alone, longer⟩ := linePieces_append_of_ended distinct tail rest ended.behind
    refine ⟨(before ++ []) :: front, behind, ?_, ?_⟩
    · rw [linePieces_unbroken_append unbroken (linePieces_lf distinct tail), alone, List.cons_append]
    · rw [List.append_assoc, List.cons_append, linePieces_unbroken_append unbroken (linePieces_lf distinct _), longer,
        List.cons_append]
  | crlf before tail unbroken =>
    have after : LinesEnded cr lf tail := by
      rw [List.append_cons] at ended
      exact ended.behind
    obtain ⟨front, behind, alone, longer⟩ := linePieces_append_of_ended distinct tail rest after
    refine ⟨(before ++ []) :: front, behind, ?_, ?_⟩
    · rw [linePieces_unbroken_append unbroken (linePieces_crlf tail), alone, List.cons_append]
    · rw [List.append_assoc, List.cons_append, List.cons_append, linePieces_unbroken_append unbroken (linePieces_crlf _),
        longer, List.cons_append]
  | cr before tail unbroken other =>
    by_cases last : tail = []
    · subst last
      have alone := linePieces_unbroken_append unbroken (linePieces_cr other)
      rw [List.append_assoc, List.singleton_append]
      by_cases joins : rest.head? = some lf
      · obtain ⟨more, rfl⟩ := List.head?_eq_some_iff.mp joins
        exact ⟨[before ++ []], more, alone, linePieces_unbroken_append unbroken (linePieces_crlf more)⟩
      · exact ⟨[before ++ []], rest, alone, linePieces_unbroken_append unbroken (linePieces_cr joins)⟩
    · obtain ⟨front, behind, alone, longer⟩ := linePieces_append_of_ended distinct tail rest ended.behind
      refine ⟨(before ++ []) :: front, behind, ?_, ?_⟩
      · rw [linePieces_unbroken_append unbroken (linePieces_cr other), alone, List.cons_append]
      · have stillOther : (tail ++ rest).head? ≠ some lf := by
          cases tail with
          | nil => exact absurd rfl last
          | cons y more => exact other
        rw [List.append_assoc, List.cons_append, linePieces_unbroken_append unbroken (linePieces_cr stillOther), longer,
          List.cons_append]
termination_by xs.length

end

namespace Lines

/-- The lines of a log whose last line is ended stay as they are, whatever is added to the log. -/
theorem ofBytes_prefix_append {front : Bytes} (ended : LinesEnded carriageReturn newline front) (rest : Bytes) :
    ofBytes front <+: ofBytes (front ++ rest) := by
  obtain ⟨pieces, behind, alone, longer⟩ := linePieces_append_of_ended distinct front rest ended
  rw [ofBytes, ofBytes, flatMap_ofStretch, flatMap_ofStretch, alone, longer,
    withoutEmptyLast_append _ (linePieces_ne_nil behind), withoutEmptyLast, if_pos List.getLast?_concat,
    List.dropLast_concat, List.map_append]
  exact List.prefix_append _ _

end Lines

end Cadence
