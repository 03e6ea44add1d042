import Mathlib.Data.List.Induction
import Cadence.Proofs.Text.Numerals

/-!
Numerals without padding. A number is written as its digits from the first one on that is no zero, or as a single zero
(`IsUnpadded.eq_write`), and a minus sign marks the negative ones (`isInteger_iff`). So a text is the numeral of one
number at most.
-/

namespace Cadence.Decimal

/-- The text is the digits of the number, and begins with a zero only where it is nothing else. -/
structure IsUnpadded (text : Text) (value : Nat) : Prop where
  something : text ≠ []
  numeral : IsNumeral text.length text value
  leading : text.head? = some '0' → text = ['0']

/-- The text is the digits of the number without its sign, behind a minus sign if it is negative. -/
inductive IsInteger : Text → Int → Prop
  | natural {text : Text} {n : Nat} : IsUnpadded text n → IsInteger text n
  | negative {text : Text} {n : Nat} : 0 < n → IsUnpadded text n → IsInteger ('-' :: text) (-n)

/-! ## Natural numbers -/

theorem digitChar_bounds : ∀ d < 10, '0' ≤ digitChar d ∧ digitChar d ≤ '9' := by decide

theorem digitChar_value : ∀ d < 10, (digitChar d).toNat - '0'.toNat = d := by decide

theorem exists_digitChar {c : Char} (bounds : '0' ≤ c ∧ c ≤ '9') : ∃ d < 10, c = digitChar d := by
  have read : digit? c = some (c.toNat - 48) := if_pos bounds
  exact ⟨_, digit?_eq_some_iff.mp read⟩

/-- One digit more at the end counts once, and all before it ten times. -/
theorem isNumeral_snoc (front : Text) {d value : Nat} (small : d < 10) :
    IsNumeral (front ++ [digitChar d]).length (front ++ [digitChar d]) value ↔
      ∃ before, IsNumeral front.length front before ∧ value = 10 * before + d := by
  constructor
  · rintro ⟨_, digits, rfl⟩
    refine ⟨_, ⟨rfl, fun c member => digits c (List.mem_append_left _ member), rfl⟩, ?_⟩
    rw [List.foldl_append, List.foldl_cons, List.foldl_nil, digitChar_value d small]
  · rintro ⟨before, ⟨_, digits, rfl⟩, rfl⟩
    refine ⟨rfl, ?_, ?_⟩
    · intro c member
      rcases List.mem_append.mp member with member | member
      · exact digits c member
      · rw [List.mem_singleton.mp member]
        exact digitChar_bounds d small
    · rw [List.foldl_append, List.foldl_cons, List.foldl_nil, digitChar_value d small]

theorem isUnpadded_digit {d : Nat} (small : d < 10) : IsUnpadded [digitChar d] d where
  something := List.cons_ne_nil _ _
  numeral := (isNumeral_snoc [] small).mpr ⟨0, ⟨rfl, by simp, rfl⟩, by omega⟩
  leading := fun zero => by rw [Option.some.inj zero]

theorem IsUnpadded.eq_zero {text : Text} {value : Nat} (numeral : IsUnpadded text value)
    (zero : text.head? = some '0') : value = 0 := by
  have worth := numeral.numeral.worth
  rw [numeral.leading zero] at worth
  exact worth.symm

theorem IsUnpadded.eq_write {text : Text} : ∀ {value : Nat}, IsUnpadded text value → text = write value := by
  -- on the digits from the last one backwards, as the numeral is written
  induction text using List.reverseRecOn with
  | nil =>
    intro value numeral
    exact absurd rfl numeral.something
  | append_singleton front c ih =>
    intro value ⟨_, numeral, leading⟩
    obtain ⟨d, small, rfl⟩ := exists_digitChar (numeral.digits c (List.mem_append_right _ (List.mem_singleton_self c)))
    obtain ⟨before, frontNumeral, rfl⟩ := (isNumeral_snoc front small).mp numeral
    by_cases alone : front = []
    · subst alone
      obtain rfl : 0 = before := frontNumeral.worth
      rw [write, if_pos (by omega), Nat.mul_zero, Nat.zero_add, List.nil_append]
    · have noZero : front.head? ≠ some '0' := by
        intro zero
        have single := congrArg List.length (leading (by rw [List.head?_append, zero, Option.some_or]))
        rw [List.length_append, List.length_singleton, List.length_singleton] at single
        exact alone (List.length_eq_zero_iff.mp (by omega))
      have frontUnpadded : IsUnpadded front before := ⟨alone, frontNumeral, fun zero => absurd zero noZero⟩
      have positive : before ≠ 0 := by
        rintro rfl
        have written := ih frontUnpadded
        rw [written, write] at noZero
        exact noZero rfl
      rw [ih frontUnpadded, write.eq_1 (10 * before + d), if_neg (by omega),
        show (10 * before + d) / 10 = before by omega, show (10 * before + d) % 10 = d by omega]

theorem isUnpadded_write (n : Nat) : IsUnpadded (write n) n := by
  induction n using write.induct with
  | case1 n small =>
    rw [write, if_pos small]
    exact isUnpadded_digit small
  | case2 n large ih =>
    rw [write, if_neg large]
    have last : n % 10 < 10 := Nat.mod_lt _ (by decide)
    refine ⟨by simp, (isNumeral_snoc (write (n / 10)) last).mpr ⟨n / 10, ih.numeral, by omega⟩, ?_⟩
    intro zero
    obtain ⟨first, rest, same⟩ := List.exists_cons_of_ne_nil ih.something
    have below : n / 10 = 0 := ih.eq_zero (by rw [same] at zero ⊢; exact zero)
    omega

theorem IsUnpadded.unique {text : Text} {m n : Nat} (first : IsUnpadded text m) (second : IsUnpadded text n) : m = n :=
  first.numeral.worth.symm.trans second.numeral.worth

/-! ## Integers -/

theorem IsUnpadded.not_minus {text : Text} {n : Nat} (numeral : IsUnpadded ('-' :: text) n) : False :=
  absurd (numeral.numeral.digits '-' List.mem_cons_self) (by decide)

theorem isInteger_iff {text : Text} {n : Int} : IsInteger text n ↔ text = writeInt n := by
  constructor
  · intro numeral
    cases numeral with
    | natural numeral =>
      rw [writeInt, if_neg (by omega), Int.natAbs_natCast]
      exact numeral.eq_write
    | negative positive numeral =>
      rw [writeInt, if_pos (by omega), Int.natAbs_neg, Int.natAbs_natCast, numeral.eq_write]
  · rintro rfl
    rw [writeInt]
    split
    · rename_i below
      have numeral := IsInteger.negative (by omega) (isUnpadded_write n.natAbs)
      rwa [show -(n.natAbs : Int) = n by omega] at numeral
    · rename_i notBelow
      have numeral := IsInteger.natural (isUnpadded_write n.natAbs)
      rwa [show (n.natAbs : Int) = n by omega] at numeral

theorem IsInteger.unique {text : Text} {m n : Int} (first : IsInteger text m) (second : IsInteger text n) : m = n := by
  cases first with
  | natural one =>
    cases second with
    | natural other => rw [one.unique other]
    | negative _ other => exact one.not_minus.elim
  | negative _ one =>
    cases second with
    | natural other => exact other.not_minus.elim
    | negative _ other => rw [one.unique other]

theorem IsInteger.of_mem {text : Text} {n : Int} (numeral : IsInteger text n) {c : Char} (member : c ∈ text) :
    c = '-' ∨ ('0' ≤ c ∧ c ≤ '9') := by
  cases numeral with
  | natural numeral => exact .inr (numeral.numeral.digits c member)
  | negative _ numeral =>
    rcases List.mem_cons.mp member with minus | member
    · exact .inl minus
    · exact .inr (numeral.numeral.digits c member)

theorem writeInt_inj {m n : Int} : writeInt m = writeInt n ↔ m = n := by
  constructor
  · intro same
    exact (isInteger_iff.mpr rfl).unique (same ▸ isInteger_iff.mpr rfl)
  · rintro rfl
    rfl

end Cadence.Decimal
