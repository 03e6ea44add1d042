import Mathlib.Algebra.Group.Nat.Defs
import Cadence.Utf8

/-!
UTF-8 in both directions. Decoding gives back every text that was encoded, and a byte below `80` stands
for its own character wherever it occurs, so that the bytes before it and after it can be decoded
separately. Decoding goes a byte at a time: what a byte gives depends on the state only (`decodeFrom_cons`).
-/

namespace Cadence.Utf8

/-! ## Decoding what was encoded -/

private theorem lead_one : ∀ n < 0x80, lead (UInt8.ofNat n) = .ascii (Char.ofNat n) := by decide

private theorem lead_two : ∀ n < 32, 2 ≤ n → lead (UInt8.ofNat (n + 0xC0)) = .begins ⟨n, 0, 0x80, 0xBF⟩ := by
  decide

private theorem lead_three : ∀ n < 16, lead (UInt8.ofNat (n + 0xE0)) =
    .begins ⟨n, 1, if n = 0 then 0xA0 else 0x80, if n = 13 then 0x9F else 0xBF⟩ := by
  decide

private theorem lead_four : ∀ n < 5, lead (UInt8.ofNat (n + 0xF0)) =
    .begins ⟨n, 2, if n = 0 then 0x90 else 0x80, if n = 4 then 0x8F else 0xBF⟩ := by
  decide

private theorem toNat_tail {n : Nat} (small : n < 64) : (UInt8.ofNat (n + 0x80)).toNat = n + 0x80 := by
  rw [UInt8.toNat_ofNat']
  omega

/-- A tail byte within the range that is due adds its six bits. -/
private theorem decodeFrom_tail {sequence : Begun} {n : Nat} (rest : Bytes) (small : n < 64)
    (low : sequence.least.toNat ≤ n + 0x80) (high : n + 0x80 ≤ sequence.greatest.toNat) :
    decodeFrom (some sequence) (UInt8.ofNat (n + 0x80) :: rest) = match sequence.after with
      | 0 => Char.ofNat (64 * sequence.bits + n) :: decodeFrom none rest
      | due + 1 => decodeFrom (some ⟨64 * sequence.bits + n, due, 0x80, 0xBF⟩) rest := by
  have value := toNat_tail small
  have inside : sequence.least ≤ UInt8.ofNat (n + 0x80) ∧ UInt8.ofNat (n + 0x80) ≤ sequence.greatest := by
    rw [UInt8.le_iff_toNat_le, UInt8.le_iff_toNat_le, value]
    exact ⟨low, high⟩
  have bits : (UInt8.ofNat (n + 0x80)).toNat % 64 = n := by omega
  cases due : sequence.after with
  | zero => rw [decodeFrom, if_pos inside, bits, due]
  | succ more => rw [decodeFrom, if_pos inside, bits, due]

private theorem decodeFrom_begins {byte : UInt8} {sequence : Begun} (rest : Bytes)
    (first : lead byte = .begins sequence) :
    decodeFrom none (byte :: rest) = decodeFrom (some sequence) rest := by
  rw [decodeFrom, first]

private theorem lead_ascii {byte : UInt8} (small : byte.toNat < 0x80) :
    lead byte = .ascii (Char.ofNat byte.toNat) := by
  rw [← lead_one byte.toNat small, UInt8.ofNat_toNat]

theorem decodeFrom_ascii {byte : UInt8} (rest : Bytes) (small : byte.toNat < 0x80) :
    decodeFrom none (byte :: rest) = Char.ofNat byte.toNat :: decodeFrom none rest := by
  rw [decodeFrom, lead_ascii small]

theorem decodeFrom_encodeChar (c : Char) (rest : Bytes) :
    decodeFrom none (String.utf8EncodeChar c ++ rest) = c :: decodeFrom none rest := by
  have scalar : c.toNat < 0xD800 ∨ 0xDFFF < c.toNat ∧ c.toNat < 0x110000 := c.valid
  have whole : Char.ofNat c.toNat = c := Char.ofNat_toNat c
  unfold String.utf8EncodeChar
  simp only [Char.toNat_val]
  generalize c.toNat = v at scalar whole
  split
  · have value : (UInt8.ofNat v).toNat = v := by rw [UInt8.toNat_ofNat']; omega
    rw [List.singleton_append, decodeFrom_ascii rest (by omega), value, whole]
  · split
    · have total : 64 * (v / 64 % 0x20) + v % 0x40 = v := by omega
      rw [List.cons_append, decodeFrom_begins _ (lead_two (v / 64 % 0x20) (by omega) (by omega)),
        List.singleton_append, decodeFrom_tail rest (by omega) (by simp) (by simp; omega)]
      simp only [total, whole]
    · split
      · have total : 64 * (64 * (v / 4096 % 0x10) + v / 64 % 0x40) + v % 0x40 = v := by omega
        rw [List.cons_append, decodeFrom_begins _ (lead_three (v / 4096 % 0x10) (by omega)), List.cons_append,
          decodeFrom_tail _ (by omega) (by simp only; split <;> simp; omega)
            (by simp only; split <;> simp <;> omega)]
        simp only
        rw [List.singleton_append, decodeFrom_tail rest (by omega) (by simp) (by simp; omega)]
        simp only [total, whole]
      · have total : 64 * (64 * (64 * (v / 262144 % 0x08) + v / 4096 % 0x40) + v / 64 % 0x40) + v % 0x40 = v := by
          omega
        rw [List.cons_append, decodeFrom_begins _ (lead_four (v / 262144 % 0x08) (by omega)), List.cons_append,
          decodeFrom_tail _ (by omega) (by simp only; split <;> simp; omega)
            (by simp only; split <;> simp <;> omega)]
        simp only
        rw [List.cons_append, decodeFrom_tail _ (by omega) (by simp) (by simp; omega)]
        simp only
        rw [List.singleton_append, decodeFrom_tail rest (by omega) (by simp) (by simp; omega)]
        simp only [total, whole]

@[simp] theorem decode_encode (text : Text) : decode (encode text) = text := by
  unfold decode encode
  induction text with
  | nil => rfl
  | cons c rest ih => rw [List.flatMap_cons, decodeFrom_encodeChar, ih]

@[simp] theorem decode?_encode (text : Text) : decode? (encode text) = some text := by
  simp [decode?, isValid]

/-! ## Sequences that have begun -/

/-- A sequence that has begun expects bytes from `80` on and ends in a character from `80` on. -/
def Begun.IsMultibyte (sequence : Begun) : Prop :=
  0x80 ≤ sequence.least.toNat ∧ sequence.greatest.toNat ≤ 0xBF ∧
    0x80 ≤ (64 * sequence.bits + sequence.least.toNat % 64) * 64 ^ sequence.after

instance (sequence : Begun) : Decidable sequence.IsMultibyte := inferInstanceAs (Decidable (_ ∧ _ ∧ _))

/-- What the lead classes promise. -/
private def leadSound (byte : UInt8) : Lead → Prop
  | .ascii c => byte.toNat < 0x80 ∧ c = Char.ofNat byte.toNat
  | .begins sequence => 0x80 ≤ byte.toNat ∧ sequence.IsMultibyte
  | .invalid => 0x80 ≤ byte.toNat

private instance (byte : UInt8) : ∀ class_ : Lead, Decidable (leadSound byte class_)
  | .ascii _ => inferInstanceAs (Decidable (_ ∧ _))
  | .begins _ => inferInstanceAs (Decidable (_ ∧ _))
  | .invalid => inferInstanceAs (Decidable (_ ≤ _))

private theorem leadSound_lead (byte : UInt8) : leadSound byte (lead byte) := by
  have table : ∀ n < 256, leadSound (UInt8.ofNat n) (lead (UInt8.ofNat n)) := by decide +kernel
  have here := table byte.toNat byte.toNat_lt
  rwa [UInt8.ofNat_toNat] at here

/-- A byte out of the range that is due breaks the sequence off and is read afresh. -/
theorem decodeFrom_broken {sequence : Begun} {byte : UInt8} (rest : Bytes)
    (outside : ¬ (sequence.least ≤ byte ∧ byte ≤ sequence.greatest)) :
    decodeFrom (some sequence) (byte :: rest) = replacement :: decodeFrom none (byte :: rest) := by
  rw [decodeFrom.eq_4, if_neg outside, decodeFrom.eq_3]

/-- The states that decoding comes to. -/
def IsState (state : Option Begun) : Prop :=
  ∀ sequence, state = some sequence → sequence.IsMultibyte

theorem isState_none : IsState none := by
  intro sequence impossible
  contradiction

/-- One byte of a sequence: a character from `80` on, or the state after it. -/
private theorem continued {sequence : Begun} {byte : UInt8} (multibyte : sequence.IsMultibyte)
    (inside : sequence.least ≤ byte ∧ byte ≤ sequence.greatest) :
    match sequence.after with
      | 0 => 0x80 ≤ 64 * sequence.bits + byte.toNat % 64
      | due + 1 => Begun.IsMultibyte ⟨64 * sequence.bits + byte.toNat % 64, due, 0x80, 0xBF⟩ := by
  obtain ⟨low, high, total⟩ := multibyte
  have above := UInt8.le_iff_toNat_le.mp inside.1
  have below := UInt8.le_iff_toNat_le.mp inside.2
  have grown : 64 * sequence.bits + sequence.least.toNat % 64 ≤ 64 * sequence.bits + byte.toNat % 64 := by omega
  cases after : sequence.after with
  | zero =>
    rw [after] at total
    simp only
    omega
  | succ due =>
    rw [after] at total
    refine ⟨Nat.le_refl _, Nat.le_refl _, ?_⟩
    calc 0x80 ≤ (64 * sequence.bits + sequence.least.toNat % 64) * 64 ^ (due + 1) := total
      _ ≤ (64 * sequence.bits + byte.toNat % 64) * 64 ^ (due + 1) := Nat.mul_le_mul_right _ grown
      _ = (64 * (64 * sequence.bits + byte.toNat % 64) + UInt8.toNat 0x80 % 64) * 64 ^ due := by
        rw [Nat.pow_succ, Nat.mul_comm (64 ^ due), ← Nat.mul_assoc, Nat.mul_comm _ 64]
        rfl

/-! ## One byte -/

/-- What a byte gives where no sequence has begun, and the state after it. -/
def Lead.gives : Lead → Text × Option Begun
  | .ascii c => ([c], none)
  | .begins sequence => ([], some sequence)
  | .invalid => ([replacement], none)

/-- What a byte gives in a state, and the state after it. -/
def decodeByte (byte : UInt8) : Option Begun → Text × Option Begun
  | none => (lead byte).gives
  | some sequence =>
    if sequence.least ≤ byte ∧ byte ≤ sequence.greatest then
      match sequence.after with
      | 0 => ([Char.ofNat (64 * sequence.bits + byte.toNat % 64)], none)
      | due + 1 => ([], some ⟨64 * sequence.bits + byte.toNat % 64, due, 0x80, 0xBF⟩)
    else (replacement :: (lead byte).gives.1, (lead byte).gives.2)

theorem decodeFrom_cons (byte : UInt8) (rest : Bytes) (state : Option Begun) :
    decodeFrom state (byte :: rest) = (decodeByte byte state).1 ++ decodeFrom (decodeByte byte state).2 rest := by
  have fresh : decodeFrom none (byte :: rest) = (lead byte).gives.1 ++ decodeFrom (lead byte).gives.2 rest := by
    rw [decodeFrom]
    cases lead byte <;> rfl
  cases state with
  | none => exact fresh
  | some sequence =>
    rw [decodeByte]
    split
    · rename_i inside
      rw [decodeFrom, if_pos inside]
      cases sequence.after <;> rfl
    · rename_i outside
      rw [decodeFrom_broken rest outside, fresh]
      rfl

theorem isState_gives (byte : UInt8) : IsState (lead byte).gives.2 := by
  have sound := leadSound_lead byte
  cases first : lead byte with
  | ascii c => exact isState_none
  | begins sequence =>
    rw [first] at sound
    rintro _ ⟨⟩
    exact sound.2
  | invalid => exact isState_none

theorem IsState.decodeByte {state : Option Begun} (isState : IsState state) (byte : UInt8) :
    IsState (decodeByte byte state).2 := by
  cases state with
  | none => exact isState_gives byte
  | some sequence =>
    rw [Utf8.decodeByte]
    split
    · rename_i inside
      have next := continued (isState sequence rfl) inside
      cases after : sequence.after with
      | zero => exact isState_none
      | succ due =>
        rw [after] at next
        rintro _ ⟨⟩
        exact next
    · exact isState_gives byte

/-- A byte that completes no character begins a sequence or goes on with one. -/
theorem decodeByte_of_nil {byte : UInt8} {state : Option Begun} (silent : (decodeByte byte state).1 = []) :
    (decodeByte byte state).2 ≠ none := by
  cases state with
  | none =>
    rw [decodeByte] at silent ⊢
    cases first : lead byte <;> simp_all [Lead.gives]
  | some sequence =>
    rw [decodeByte] at silent ⊢
    split at silent
    · rename_i inside
      rw [if_pos inside]
      cases after : sequence.after <;> simp_all
    · contradiction

/-! ## Bytes that stand for themselves -/

/-- The values that stand for no character are all taken for NUL. -/
private theorem toNat_of_eq_ofNat {c : Char} (notNul : c.toNat ≠ 0) {n : Nat} (same : c = Char.ofNat n) :
    n = c.toNat := by
  by_cases valid : n.isValidChar
  · rw [same, Char.ofNat, dif_pos valid]
    rfl
  · rw [same, Char.ofNat, dif_neg valid] at notNul
    contradiction

section
variable {c : Char} {byte : UInt8} (small : c.toNat < 0x80) (notNul : c.toNat ≠ 0)
include small notNul

private theorem eq_of_mem_gives (member : c ∈ (lead byte).gives.1) : byte = UInt8.ofNat c.toNat := by
  have sound := leadSound_lead byte
  cases first : lead byte with
  | ascii d =>
    rw [first] at sound member
    have value := toNat_of_eq_ofNat notNul ((List.mem_singleton.mp member).trans sound.2)
    rw [← value, UInt8.ofNat_toNat]
  | begins sequence => simp [first, Lead.gives] at member
  | invalid =>
    rw [first] at member
    rw [List.mem_singleton.mp member] at small
    exact absurd small (by decide)

/-- A character below `80` other than NUL is given by its own byte only. -/
theorem eq_of_mem_decodeByte {state : Option Begun} (isState : IsState state)
    (member : c ∈ (decodeByte byte state).1) : byte = UInt8.ofNat c.toNat := by
  cases state with
  | none => exact eq_of_mem_gives small notNul member
  | some sequence =>
    rw [decodeByte] at member
    split at member
    · rename_i inside
      have next := continued (isState sequence rfl) inside
      cases after : sequence.after with
      | zero =>
        rw [after] at member next
        have value := toNat_of_eq_ofNat notNul (List.mem_singleton.mp member)
        simp only at next
        omega
      | succ due => simp [after] at member
    · rcases List.mem_cons.mp member with rfl | later
      · exact absurd small (by decide)
      · exact eq_of_mem_gives small notNul later

theorem mem_of_mem_decodeFrom (bytes : Bytes) :
    ∀ state, IsState state → c ∈ decodeFrom state bytes → UInt8.ofNat c.toNat ∈ bytes := by
  induction bytes with
  | nil =>
    intro state _ member
    cases state with
    | none => simp [decodeFrom] at member
    | some sequence =>
      rw [List.mem_singleton.mp member] at small
      exact absurd small (by decide)
  | cons byte rest ih =>
    intro state isState member
    rw [decodeFrom_cons, List.mem_append] at member
    rcases member with here | later
    · rw [eq_of_mem_decodeByte small notNul isState here]
      exact List.mem_cons_self
    · exact List.mem_cons_of_mem _ (ih _ (isState.decodeByte byte) later)

end

/-- Nothing is lost: bytes, or a sequence that has begun, give at least one character. -/
private theorem decodeFrom_ne_nil (bytes : Bytes) :
    ∀ state, (bytes ≠ [] ∨ state ≠ none) → decodeFrom state bytes ≠ [] := by
  induction bytes with
  | nil =>
    intro state something
    cases state with
    | none => simp at something
    | some sequence => simp [decodeFrom]
  | cons byte rest ih =>
    intro state _ empty
    rw [decodeFrom_cons, List.append_eq_nil_iff] at empty
    exact ih _ (.inr (decodeByte_of_nil empty.1)) empty.2

theorem decodeByte_ascii {byte : UInt8} (small : byte.toNat < 0x80) {state : Option Begun} (isState : IsState state) :
    decodeByte byte state = (decodeFrom state [] ++ [Char.ofNat byte.toNat], none) := by
  cases state with
  | none =>
    rw [decodeByte, lead_ascii small]
    rfl
  | some sequence =>
    have outside : ¬ (sequence.least ≤ byte ∧ byte ≤ sequence.greatest) := by
      have low := (isState sequence rfl).1
      rintro ⟨above, _⟩
      have := UInt8.le_iff_toNat_le.mp above
      omega
    rw [decodeByte, if_neg outside, lead_ascii small]
    rfl

/-- A byte below `80` is its own character after any bytes, and decoding starts afresh behind it. -/
theorem decodeFrom_append_ascii {byte : UInt8} (rest : Bytes) (small : byte.toNat < 0x80) (before : Bytes) :
    ∀ state, IsState state → decodeFrom state (before ++ byte :: rest) =
      decodeFrom state before ++ Char.ofNat byte.toNat :: decodeFrom none rest := by
  induction before with
  | nil =>
    intro state isState
    rw [List.nil_append, decodeFrom_cons, decodeByte_ascii small isState, List.append_assoc]
    rfl
  | cons head tail ih =>
    intro state isState
    rw [List.cons_append, decodeFrom_cons, decodeFrom_cons, ih _ (isState.decodeByte head), List.append_assoc]

theorem decode_append_ascii {byte : UInt8} (before rest : Bytes) (small : byte.toNat < 0x80) :
    decode (before ++ byte :: rest) = decode before ++ Char.ofNat byte.toNat :: decode rest :=
  decodeFrom_append_ascii rest small before none isState_none

theorem mem_of_mem_decode {c : Char} {bytes : Bytes} (small : c.toNat < 0x80) (notNul : c.toNat ≠ 0)
    (member : c ∈ decode bytes) : UInt8.ofNat c.toNat ∈ bytes :=
  mem_of_mem_decodeFrom small notNul bytes none isState_none member

theorem decode_eq_nil_iff {bytes : Bytes} : decode bytes = [] ↔ bytes = [] := by
  constructor
  · intro empty
    cases bytes with
    | nil => rfl
    | cons byte rest => exact absurd empty (decodeFrom_ne_nil _ none (.inl (by simp)))
  · rintro rfl
    rfl

end Cadence.Utf8
