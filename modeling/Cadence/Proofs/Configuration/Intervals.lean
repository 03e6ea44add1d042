import Mathlib.Data.Option.Basic
import Cadence.Interval
import Cadence.Proofs.Text.ByteOrder
import Cadence.Proofs.Text.Integers

/-!
The texts that are intervals. A numeral, behind a plus sign or not, and a unit or none make so many seconds
(`IsInterval`); the text is accepted if they are at least one and no more than the longest span has, and they are the
span (`Interval.read_exact`). Words of 64 bits are wide enough to read an interval in: whatever does not fit one is too
long anyway (`readInWords?_eq`).
-/

namespace Cadence

def Span.longestSeconds : Nat := 9223372036854775

theorem Span.ofSeconds?_eq_some_iff {seconds : Nat} {span : Span} : ofSeconds? seconds = some span ↔
    seconds ≤ longestSeconds ∧ span.nanoseconds = seconds * nanosecondsPerSecond := by
  have bounds : (-limit ≤ (seconds : Int) * nanosecondsPerSecond ∧ (seconds : Int) * nanosecondsPerSecond ≤ limit) ↔
      seconds ≤ longestSeconds := by
    rw [limit, nanosecondsPerSecond, longestSeconds]
    omega
  constructor
  · intro made
    have same := ofNanoseconds?_nanoseconds made
    refine ⟨bounds.mp ?_, same⟩
    rw [← same]
    exact ⟨span.lower, span.upper⟩
  · rintro ⟨_, same⟩
    rw [ofSeconds?, ← same]
    exact ofNanoseconds?_self span

theorem Span.exists_ofSeconds? {seconds : Nat} (short : seconds ≤ longestSeconds) :
    ∃ span, ofSeconds? seconds = some span := by
  rw [longestSeconds] at short
  have bounds : -limit ≤ (seconds : Int) * nanosecondsPerSecond ∧ (seconds : Int) * nanosecondsPerSecond ≤ limit := by
    rw [limit, nanosecondsPerSecond]
    omega
  exact ⟨⟨seconds * nanosecondsPerSecond, bounds.1, bounds.2⟩, Span.ofSeconds?_eq_some_iff.mpr ⟨short, rfl⟩⟩

namespace Interval

/-! ## How intervals are written -/

/-- The letter of a unit, or none for the second, and how many seconds it has. -/
inductive IsUnit : Text → Nat → Prop
  | none : IsUnit [] 1
  | second : IsUnit ['s'] 1
  | minute : IsUnit ['m'] 60
  | hour : IsUnit ['h'] 3600

/-- The text is a number, which a plus sign may precede, in a unit, and these are so many seconds. -/
def IsInterval (text : Text) (seconds : Nat) : Prop :=
  ∃ sign digits letter count unit, (sign = [] ∨ sign = ['+']) ∧ digits ≠ [] ∧
    Decimal.IsNumeral digits.length digits count ∧ IsUnit letter unit ∧ text = sign ++ digits ++ letter ∧
    seconds = count * unit

variable {text letter : Text} {seconds count : Nat}

theorem IsUnit.pos (unit : IsUnit letter seconds) : 0 < seconds := by
  cases unit <;> decide

theorem isUnit_of_unit? {c : Char} {seconds : Nat} (unit : unit? c = some seconds) : IsUnit [c] seconds := by
  unfold unit? at unit
  split at unit
  · cases unit; exact .second
  · cases unit; exact .minute
  · cases unit; exact .hour
  · contradiction

/-- The cut falls behind a whole character, or at the end. -/
theorem exists_isUnit_cutUnit (text : Text) :
    ∃ letter, IsUnit letter (cutUnit text).2 ∧ text = (cutUnit text).1 ++ letter := by
  unfold cutUnit
  cases found : text.getLast?.bind unit? with
  | none => exact ⟨[], .none, (List.append_nil text).symm⟩
  | some seconds =>
    obtain ⟨c, last, unit⟩ := Option.bind_eq_some_iff.mp found
    obtain ⟨front, rfl⟩ := List.getLast?_eq_some_iff.mp last
    exact ⟨[c], isUnit_of_unit? unit, by simp⟩

theorem cutUnit_append {front : Text} {c : Char} (digit : '0' ≤ c ∧ c ≤ '9') (unit : IsUnit letter seconds) :
    cutUnit (front ++ [c] ++ letter) = (front ++ [c], seconds) := by
  have noUnit : unit? c = none := by
    unfold unit?
    split
    · exact absurd digit (by decide)
    · exact absurd digit (by decide)
    · exact absurd digit (by decide)
    · rfl
  cases unit with
  | none => simp [cutUnit, noUnit]
  | second => simp [cutUnit, unit?]
  | minute => simp [cutUnit, unit?]
  | hour => simp [cutUnit, unit?]

theorem read?_eq_some_iff_isNumeral : Decimal.read? text = some count ↔
    text ≠ [] ∧ Decimal.IsNumeral text.length text count := by
  by_cases none : text = []
  · simp [none, Decimal.read?]
  · simp [Decimal.isNumeral_iff (List.length_pos_iff.mpr none), none]

theorem count?_eq_some_iff : count? text = some count ↔ ∃ sign digits, (sign = [] ∨ sign = ['+']) ∧ digits ≠ [] ∧
    Decimal.IsNumeral digits.length digits count ∧ text = sign ++ digits := by
  constructor
  · intro counted
    unfold count? at counted
    split at counted
    · rename_i digits
      obtain ⟨something, numeral⟩ := read?_eq_some_iff_isNumeral.mp counted
      exact ⟨['+'], digits, .inr rfl, something, numeral, rfl⟩
    · obtain ⟨something, numeral⟩ := read?_eq_some_iff_isNumeral.mp counted
      exact ⟨[], text, .inl rfl, something, numeral, rfl⟩
  · rintro ⟨sign, digits, rfl | rfl, something, numeral, rfl⟩
    · have unsigned : ∀ rest, text = '+' :: rest → False := by
        rintro rest rfl
        exact absurd (numeral.digits '+' List.mem_cons_self) (by decide)
      rw [count?.eq_2 _ unsigned]
      exact read?_eq_some_iff_isNumeral.mpr ⟨something, numeral⟩
    · exact read?_eq_some_iff_isNumeral.mpr ⟨something, numeral⟩

theorem read?_eq_some_iff {span : Span} : read? text = some span ↔ ∃ seconds, IsInterval text seconds ∧
    1 ≤ seconds ∧ seconds ≤ Span.longestSeconds ∧ span.nanoseconds = seconds * nanosecondsPerSecond := by
  constructor
  · intro accepted
    obtain ⟨letter, unit, whole⟩ := exists_isUnit_cutUnit text
    unfold read? at accepted
    cases counted : count? (cutUnit text).1 with
    | none => simp [counted] at accepted
    | some count =>
      simp only [counted] at accepted
      split at accepted
      · contradiction
      · rename_i something
        obtain ⟨sign, digits, signed, nonempty, numeral, same⟩ := count?_eq_some_iff.mp counted
        obtain ⟨short, made⟩ := Span.ofSeconds?_eq_some_iff.mp accepted
        refine ⟨count * (cutUnit text).2, ⟨sign, digits, letter, count, _, signed, nonempty, numeral, unit, ?_, rfl⟩, ?_,
          short, made⟩
        · rw [← same]
          exact whole
        · exact Nat.mul_pos (Nat.pos_of_ne_zero something) unit.pos
  · rintro ⟨seconds, ⟨sign, digits, letter, count, unit, signed, nonempty, numeral, isUnit, rfl, rfl⟩, positive, short, made⟩
    obtain ⟨front, last, rfl⟩ := (List.eq_nil_or_concat digits).resolve_left nonempty
    rw [List.concat_eq_append] at numeral ⊢
    have cut : cutUnit (sign ++ (front ++ [last]) ++ letter) = (sign ++ (front ++ [last]), unit) := by
      rw [← List.append_assoc sign]
      exact cutUnit_append (numeral.digits last (by simp)) isUnit
    have counted : count? (sign ++ (front ++ [last])) = some count :=
      count?_eq_some_iff.mpr ⟨sign, front ++ [last], signed, by simp, numeral, rfl⟩
    have something : count ≠ 0 := by
      rintro rfl
      simp at positive
    rw [read?, cut]
    simp only [counted, if_neg something]
    exact Span.ofSeconds?_eq_some_iff.mpr ⟨short, made⟩

/-! ## Words -/

/-- The greatest number in a signed word of 64 bits. -/
def greatestWord : Nat := 9223372036854775807

def word? (n : Nat) : Option Nat := if n ≤ greatestWord then some n else none

/-- Digits behind a value, read in words: every product and every sum has to fit one. -/
def extendWord? (value : Nat) : Text → Option Nat
  | [] => some value
  | c :: rest => (Decimal.digit? c).bind fun digit =>
    (word? (10 * value)).bind fun tenfold => (word? (tenfold + digit)).bind fun next => extendWord? next rest

def numeralInWords? (text : Text) : Option Nat :=
  if text.isEmpty then none else extendWord? 0 text

def countInWords? : Text → Option Nat
  | '+' :: digits => numeralInWords? digits
  | digits => numeralInWords? digits

/-- An interval, read in words. -/
def readInWords? (text : Text) : Option Span :=
  let (numeral, unit) := cutUnit text
  match countInWords? numeral with
  | none => none
  | some count => if count = 0 then none else (word? (count * unit)).bind fun seconds => Span.ofSeconds? seconds

theorem extend?_le (text : Text) : ∀ {value n : Nat}, Decimal.extend? value text = some n → value ≤ n := by
  induction text with
  | nil =>
    rintro value n ⟨⟩
    exact Nat.le_refl value
  | cons c rest ih =>
    intro value n read
    obtain ⟨digit, _, read⟩ := Option.bind_eq_some_iff.mp read
    have further := ih read
    omega

theorem extendWord?_eq (text : Text) : ∀ {value : Nat}, value ≤ greatestWord →
    extendWord? value text = (Decimal.extend? value text).bind word? := by
  induction text with
  | nil =>
    intro value fits
    rw [extendWord?, Decimal.extend?, Option.bind_some, word?, if_pos fits]
  | cons c rest ih =>
    intro value fits
    rw [extendWord?, Decimal.extend?, Option.bind_assoc]
    refine Option.bind_congr fun digit _ => ?_
    by_cases next : 10 * value + digit ≤ greatestWord
    · have tenfold : 10 * value ≤ greatestWord := by omega
      rw [word?, if_pos tenfold, Option.bind_some, word?, if_pos next, Option.bind_some, ih next]
    · -- a word that is left once is left for good
      have left : (Decimal.extend? (10 * value + digit) rest).bind word? = none := by
        rw [Option.bind_eq_none_iff]
        intro n read
        have large := extend?_le rest read
        exact if_neg (by omega)
      rw [left]
      by_cases tenfold : 10 * value ≤ greatestWord
      · rw [word?, if_pos tenfold, Option.bind_some, word?, if_neg next, Option.bind_none]
      · rw [word?, if_neg tenfold, Option.bind_none]

theorem countInWords?_eq (text : Text) : countInWords? text = (count? text).bind word? := by
  have read : ∀ digits, numeralInWords? digits = (Decimal.read? digits).bind word? := by
    intro digits
    rw [numeralInWords?, Decimal.read?, extendWord?_eq digits (by decide)]
    split <;> rfl
  by_cases signed : ∃ digits, text = '+' :: digits
  · obtain ⟨digits, rfl⟩ := signed
    exact read digits
  · have unsigned : ∀ digits, text = '+' :: digits → False := fun digits same => signed ⟨digits, same⟩
    rw [countInWords?.eq_2 _ unsigned, count?.eq_2 _ unsigned]
    exact read text

/-- Words are wide enough: what does not fit one is longer than the longest span. -/
theorem readInWords?_eq (text : Text) : readInWords? text = read? text := by
  have tooLong : ∀ n : Nat, ¬ n ≤ greatestWord → Span.ofSeconds? n = none := by
    intro n large
    rw [Option.eq_none_iff_forall_ne_some]
    intro span made
    have short := (Span.ofSeconds?_eq_some_iff.mp made).1
    rw [Span.longestSeconds] at short
    rw [greatestWord] at large
    omega
  have atLeast : ∀ count : Nat, count ≤ count * (cutUnit text).2 := by
    obtain ⟨letter, unit, _⟩ := exists_isUnit_cutUnit text
    intro count
    exact Nat.le_mul_of_pos_right count unit.pos
  rw [readInWords?, read?]
  simp only [countInWords?_eq, ← Int.natCast_mul]
  cases count? (cutUnit text).1 with
  | none => rfl
  | some count =>
    have more := atLeast count
    by_cases fits : count ≤ greatestWord
    · simp only [Option.bind_some, word?, if_pos fits]
      by_cases product : count * (cutUnit text).2 ≤ greatestWord
      · rw [if_pos product, Option.bind_some]
      · rw [if_neg product, tooLong _ product, Option.bind_none]
    · have something : count ≠ 0 := by
        rintro rfl
        exact fits (Nat.zero_le _)
      have product := tooLong (count * (cutUnit text).2) (by omega)
      simp only [Option.bind_some, word?, if_neg fits, if_neg something, product]

/-! ## Accepted intervals -/

theorem read_eq_ok_iff {span : Span} : read text = .ok span ↔ read? text = some span := by
  unfold read
  cases read? text <;> simp

theorem read_eq_error_iff {fault : SettingsFault} :
    read text = .error fault ↔ read? text = none ∧ fault = .badInterval text := by
  unfold read
  cases read? text <;> simp [eq_comm]

theorem isInterval_write (n : Nat) : IsInterval (Decimal.write n) n := by
  have numeral := Decimal.isUnpadded_write n
  exact ⟨[], Decimal.write n, [], n, 1, .inl rfl, numeral.something, numeral.numeral, .none, by simp, by simp⟩

/-- Intervals are accepted from one second to the longest span and read exactly, as the span that their seconds, written
as a bare numeral, are read as again; any other text is refused by itself. No step leaves the range of a word, and the
unit is cut off as whole characters. -/
theorem read_exact (text : Text) :
    (∀ span, read text = .ok span ↔ ∃ seconds, IsInterval text seconds ∧
      1 ≤ seconds ∧ seconds ≤ Span.longestSeconds ∧ span.nanoseconds = seconds * nanosecondsPerSecond) ∧
    (read text = .error (.badInterval text) ↔ ¬ ∃ seconds, IsInterval text seconds ∧
      1 ≤ seconds ∧ seconds ≤ Span.longestSeconds) ∧
    (∀ span, read text = .ok span → read (Decimal.writeInt span.wholeSeconds) = .ok span) ∧
    readInWords? text = read? text ∧
    ∃ letter, IsUnit letter (cutUnit text).2 ∧ Utf8.encode text = Utf8.encode (cutUnit text).1 ++ Utf8.encode letter := by
  refine ⟨fun span => read_eq_ok_iff.trans read?_eq_some_iff, ?_, ?_, readInWords?_eq text, ?_⟩
  · rw [read_eq_error_iff, Option.eq_none_iff_forall_ne_some]
    constructor
    · rintro ⟨refused, _⟩ ⟨seconds, interval, positive, short⟩
      obtain ⟨span, made⟩ := Span.exists_ofSeconds? short
      exact refused span (read?_eq_some_iff.mpr
        ⟨seconds, interval, positive, short, (Span.ofSeconds?_eq_some_iff.mp made).2⟩)
    · intro outside
      refine ⟨fun span accepted => outside ?_, rfl⟩
      obtain ⟨seconds, interval, positive, short, _⟩ := read?_eq_some_iff.mp accepted
      exact ⟨seconds, interval, positive, short⟩
  · intro span accepted
    obtain ⟨seconds, _, positive, short, made⟩ := read?_eq_some_iff.mp (read_eq_ok_iff.mp accepted)
    have whole : span.wholeSeconds = seconds := by
      rw [Span.wholeSeconds, made]
      exact Int.mul_tdiv_cancel _ (by decide)
    have written : Decimal.writeInt seconds = Decimal.write seconds := by
      rw [Decimal.writeInt, if_neg (by omega), Int.natAbs_natCast]
    rw [whole, written, read_eq_ok_iff, read?_eq_some_iff]
    exact ⟨seconds, isInterval_write seconds, positive, short, made⟩
  · obtain ⟨letter, unit, whole⟩ := exists_isUnit_cutUnit text
    exact ⟨letter, unit, by rw [← Utf8.encode_append, ← whole]⟩

/-- The longest interval that is written in hours, with a sign and zeros in front. -/
theorem read_exact_of_hours : ∃ span : Span, read "+002562047788015h".toList = .ok span ∧
    span.wholeSeconds = 9223372036854000 ∧ read (Decimal.writeInt span.wholeSeconds) = .ok span := by
  let span : Span := ⟨9223372036854000 * nanosecondsPerSecond, by decide, by decide⟩
  have accepted : read "+002562047788015h".toList = .ok span := by decide +kernel
  exact ⟨span, accepted, by decide, (read_exact _).2.2.1 span accepted⟩

end Interval

end Cadence
