import Cadence.Text

/-!
Spans of time, exact to the nanosecond and of either sign. A span is at most `2 ^ 63 - 1`
milliseconds long either way. Sums can leave that range, so addition answers with an option.
-/

namespace Cadence

def nanosecondsPerSecond : Int := 1000000000

/-- The nanoseconds of the longest span: as many milliseconds as a signed word of 64 bits counts. -/
def Span.limit : Int := 9223372036854775807 * 1000000

/-- A span of time within the range. -/
structure Span where
  nanoseconds : Int
  lower : -Span.limit ≤ nanoseconds
  upper : nanoseconds ≤ Span.limit
deriving DecidableEq

namespace Span

theorem ext_nanoseconds {a b : Span} (h : a.nanoseconds = b.nanoseconds) : a = b := by
  cases a; cases b; simp_all

/-- The span of this many nanoseconds, where it lies in the range. -/
def ofNanoseconds? (n : Int) : Option Span :=
  if h : -limit ≤ n ∧ n ≤ limit then some ⟨n, h.1, h.2⟩ else none

def ofSeconds? (n : Int) : Option Span :=
  ofNanoseconds? (n * nanosecondsPerSecond)

def zero : Span := ⟨0, by decide, by decide⟩

instance : LE Span := ⟨fun a b => a.nanoseconds ≤ b.nanoseconds⟩
instance : LT Span := ⟨fun a b => a.nanoseconds < b.nanoseconds⟩
instance (a b : Span) : Decidable (a ≤ b) := inferInstanceAs (Decidable (a.nanoseconds ≤ b.nanoseconds))
instance (a b : Span) : Decidable (a < b) := inferInstanceAs (Decidable (a.nanoseconds < b.nanoseconds))

def add? (a b : Span) : Option Span :=
  ofNanoseconds? (a.nanoseconds + b.nanoseconds)

/-- The whole seconds of a span, without the fraction on either side of zero. -/
def wholeSeconds (a : Span) : Int :=
  a.nanoseconds.tdiv nanosecondsPerSecond

/-- What `wholeSeconds` leaves out, with the sign of the span. -/
def fraction (a : Span) : Int :=
  a.nanoseconds.tmod nanosecondsPerSecond

/-! ## The range -/

theorem ofNanoseconds?_nanoseconds {n : Int} {a : Span} (h : ofNanoseconds? n = some a) :
    a.nanoseconds = n := by
  unfold ofNanoseconds? at h
  split at h
  · simp only [Option.some.injEq] at h
    simp [← h]
  · contradiction

@[simp] theorem ofNanoseconds?_self (a : Span) : ofNanoseconds? a.nanoseconds = some a := by
  simp [ofNanoseconds?, a.lower, a.upper]

theorem ofNanoseconds?_eq_none {n : Int} :
    ofNanoseconds? n = none ↔ n < -limit ∨ limit < n := by
  unfold ofNanoseconds?
  split <;> simp <;> omega

end Span

end Cadence
