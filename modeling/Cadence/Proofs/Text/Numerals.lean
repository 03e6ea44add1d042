import Cadence.Decimal

/-!
Numerals of a fixed width, in the digits `0` to `9` (`IsNumeral`). Two digits are the numeral of one number below a
hundred, padded with a zero (`read?_two_iff`), and four digits are those of the hundreds followed by those of the rest
(`read?_four_iff`).
-/

namespace Cadence.Decimal

theorem digit?_digitChar : ∀ n < 10, digit? (digitChar n) = some n := by decide

theorem digit?_eq_some_iff {c : Char} {n : Nat} : digit? c = some n ↔ n < 10 ∧ c = digitChar n := by
  constructor
  · intro read
    unfold digit? at read
    split at read
    · rename_i bounds
      obtain rfl := Option.some.inj read
      have lower : 48 ≤ c.toNat := bounds.1
      have upper : c.toNat ≤ 57 := bounds.2
      refine ⟨by omega, ?_⟩
      rw [digitChar, show 48 + (c.toNat - 48) = c.toNat by omega, Char.ofNat_toNat]
    · contradiction
  · rintro ⟨small, rfl⟩
    exact digit?_digitChar n small

theorem digitChar_inj {m n : Nat} (first : m < 10) (second : n < 10) : digitChar m = digitChar n ↔ m = n := by
  constructor
  · intro same
    have read := digit?_digitChar m first
    rw [same, digit?_digitChar n second] at read
    exact (Option.some.inj read).symm
  · rintro rfl
    rfl

@[simp] theorem extend?_nil_eq_some_iff {value n : Nat} : extend? value [] = some n ↔ value = n := by
  rw [extend?, Option.some.injEq]

/-- Digits that follow a value are read one after the other. -/
@[simp] theorem extend?_cons_eq_some_iff {value n : Nat} {c : Char} {rest : Text} :
    extend? value (c :: rest) = some n ↔ ∃ d, (d < 10 ∧ c = digitChar d) ∧ extend? (10 * value + d) rest = some n := by
  simp only [extend?, Option.bind_eq_some_iff, digit?_eq_some_iff]

/-- Two digits are read as the number below a hundred whose padded numeral they are. -/
theorem read?_two_iff {a b : Char} {n : Nat} : read? [a, b] = some n ↔ n < 100 ∧ [a, b] = writeTwo n := by
  simp only [read?, List.isEmpty_cons, Bool.false_eq_true, if_false, extend?_cons_eq_some_iff,
    extend?_nil_eq_some_iff, writeTwo, List.cons.injEq, and_true]
  constructor
  · rintro ⟨tens, ⟨tensSmall, rfl⟩, ones, ⟨onesSmall, rfl⟩, rfl⟩
    refine ⟨by omega, ?_, ?_⟩
    · rw [digitChar_inj tensSmall (by omega)]
      omega
    · rw [digitChar_inj onesSmall (by omega)]
      omega
  · rintro ⟨small, rfl, rfl⟩
    exact ⟨n / 10 % 10, ⟨by omega, rfl⟩, n % 10, ⟨by omega, rfl⟩, by omega⟩

/-- Four digits are read as the number whose hundreds and rest they are. -/
theorem read?_four_iff {a b c d : Char} {n : Nat} :
    read? [a, b, c, d] = some n ↔ n < 10000 ∧ [a, b, c, d] = writeTwo (n / 100) ++ writeTwo (n % 100) := by
  simp only [read?, List.isEmpty_cons, Bool.false_eq_true, if_false, extend?_cons_eq_some_iff,
    extend?_nil_eq_some_iff, writeTwo, List.cons_append, List.nil_append, List.cons.injEq, and_true]
  constructor
  · rintro ⟨first, ⟨firstSmall, rfl⟩, second, ⟨secondSmall, rfl⟩, third, ⟨thirdSmall, rfl⟩, fourth,
      ⟨fourthSmall, rfl⟩, rfl⟩
    refine ⟨by omega, ?_, ?_, ?_, ?_⟩
    · rw [digitChar_inj firstSmall (by omega)]
      omega
    · rw [digitChar_inj secondSmall (by omega)]
      omega
    · rw [digitChar_inj thirdSmall (by omega)]
      omega
    · rw [digitChar_inj fourthSmall (by omega)]
      omega
  · rintro ⟨small, rfl, rfl, rfl, rfl⟩
    exact ⟨n / 100 / 10 % 10, ⟨by omega, rfl⟩, n / 100 % 10, ⟨by omega, rfl⟩, n % 100 / 10 % 10, ⟨by omega, rfl⟩,
      n % 100 % 10, ⟨by omega, rfl⟩, by omega⟩

/-! ## Values -/

/-- The text is so many digits from `0` to `9`, the value of each counting ten times that of the next. -/
structure IsNumeral (count : Nat) (text : Text) (value : Nat) : Prop where
  length : text.length = count
  digits : ∀ c ∈ text, '0' ≤ c ∧ c ≤ '9'
  worth : text.foldl (fun sum c => 10 * sum + (c.toNat - '0'.toNat)) 0 = value

theorem extend?_eq_some_iff (text : Text) : ∀ {value n : Nat}, extend? value text = some n ↔
    (∀ c ∈ text, '0' ≤ c ∧ c ≤ '9') ∧ text.foldl (fun sum c => 10 * sum + (c.toNat - '0'.toNat)) value = n := by
  induction text with
  | nil => simp [extend?]
  | cons c rest ih =>
    intro value n
    rw [extend?, digit?]
    by_cases digit : '0' ≤ c ∧ c ≤ '9'
    · rw [if_pos digit, Option.bind_some, ih, List.forall_mem_cons, List.foldl_cons]
      simp [digit]
    · simp [digit]

theorem isNumeral_iff {count value : Nat} {text : Text} (positive : 0 < count) :
    IsNumeral count text value ↔ text.length = count ∧ read? text = some value := by
  have read : text.length = count → read? text = extend? 0 text := by
    intro length
    have something : text.isEmpty = false := by
      cases text <;> simp at length ⊢
      omega
    simp [read?, something]
  constructor
  · rintro ⟨length, digits, worth⟩
    exact ⟨length, (read length).trans ((extend?_eq_some_iff text).mpr ⟨digits, worth⟩)⟩
  · rintro ⟨length, value⟩
    obtain ⟨digits, worth⟩ := (extend?_eq_some_iff text).mp ((read length).symm.trans value)
    exact ⟨length, digits, worth⟩

end Cadence.Decimal
