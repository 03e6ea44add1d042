import Mathlib.Data.List.Basic
import Cadence.Proofs.Text.Encoding

/-!
Decoding, said without the decoder (`DecodesTo`). Bytes that begin with the sequence of a character are read as this
character. Of bytes that do not, the longest front that begins some sequence, or the first byte if none does, becomes
one replacement character, and what stands behind it is read afresh. All bytes decode to one text, and it is the one
that the decoder gives (`decodesTo_iff`).
-/

namespace Cadence.Utf8

/-- The bytes begin the sequence of some character. -/
def BeginsChar (front : Bytes) : Prop :=
  ∃ c, front <+: String.utf8EncodeChar c

/-- No character stands in front of `bad ++ rest`, and `bad` is all of it that may have begun one, or else its first
byte. -/
structure IsBroken (bad rest : Bytes) : Prop where
  noChar : ∀ c, ¬ String.utf8EncodeChar c <+: bad ++ rest
  something : bad ≠ []
  begins : BeginsChar bad ∨ bad.length = 1
  longest : ∀ front, front <+: bad ++ rest → BeginsChar front → front.length ≤ bad.length

/-- The text that bytes stand for, a replacement character for all that is broken. -/
inductive DecodesTo : Bytes → Text → Prop
  | nil : DecodesTo [] []
  | char (c : Char) {rest : Bytes} {text : Text} :
      DecodesTo rest text → DecodesTo (String.utf8EncodeChar c ++ rest) (c :: text)
  | broken {bad rest : Bytes} {text : Text} :
      IsBroken bad rest → DecodesTo rest text → DecodesTo (bad ++ rest) (replacement :: text)

/-! ## Sequences of characters -/

/-- A byte that continues a sequence. -/
def IsTail (byte : UInt8) : Prop := 0x80 ≤ byte.toNat ∧ byte.toNat ≤ 0xBF

theorem encodeChar_ne_nil (c : Char) : String.utf8EncodeChar c ≠ [] := by
  apply List.ne_nil_of_length_pos
  simp [c.utf8Size_pos]

theorem toNat_ofNat {n : Nat} (scalar : n < 0xD800 ∨ 0xDFFF < n ∧ n < 0x110000) : (Char.ofNat n).val.toNat = n := by
  have valid : n.isValidChar := scalar
  rw [Char.ofNat, dif_pos valid]
  rfl

private theorem eq_ofNat {byte : UInt8} {n : Nat} (same : byte.toNat = n) : byte = UInt8.ofNat n := by
  rw [← same, UInt8.ofNat_toNat]

theorem encodeChar_one {a : UInt8} (small : a.toNat < 0x80) : [a] = String.utf8EncodeChar (Char.ofNat a.toNat) := by
  unfold String.utf8EncodeChar
  rw [toNat_ofNat (by omega)]
  simp only
  rw [if_pos (by omega), UInt8.ofNat_toNat]

theorem encodeChar_two {a b : UInt8} (first : a.toNat / 32 = 6) (second : IsTail b)
    (long : 2 ≤ a.toNat % 32) : [a, b] = String.utf8EncodeChar (Char.ofNat (64 * (a.toNat % 32) + b.toNat % 64)) := by
  obtain ⟨bLow, bHigh⟩ := second
  unfold String.utf8EncodeChar
  rw [toNat_ofNat (by omega)]
  simp only
  rw [if_neg (by omega), if_pos (by omega)]
  simp only [List.cons.injEq, and_true]
  exact ⟨eq_ofNat (by omega), eq_ofNat (by omega)⟩

theorem encodeChar_three {a b c : UInt8} {n : Nat} (first : a.toNat / 16 = 14) (second : IsTail b) (third : IsTail c)
    (value : n = 64 * (64 * (a.toNat % 16) + b.toNat % 64) + c.toNat % 64) (long : 0x800 ≤ n)
    (scalar : n < 0xD800 ∨ 0xDFFF < n) : [a, b, c] = String.utf8EncodeChar (Char.ofNat n) := by
  obtain ⟨bLow, bHigh⟩ := second
  obtain ⟨cLow, cHigh⟩ := third
  unfold String.utf8EncodeChar
  rw [toNat_ofNat (by omega)]
  simp only
  rw [if_neg (by omega), if_neg (by omega), if_pos (by omega)]
  simp only [List.cons.injEq, and_true]
  exact ⟨eq_ofNat (by omega), eq_ofNat (by omega), eq_ofNat (by omega)⟩

theorem encodeChar_four {a b c d : UInt8} {n : Nat} (first : a.toNat / 8 = 30) (second : IsTail b) (third : IsTail c)
    (fourth : IsTail d)
    (value : n = 64 * (64 * (64 * (a.toNat % 8) + b.toNat % 64) + c.toNat % 64) + d.toNat % 64)
    (long : 0x10000 ≤ n) (scalar : n < 0x110000) : [a, b, c, d] = String.utf8EncodeChar (Char.ofNat n) := by
  obtain ⟨bLow, bHigh⟩ := second
  obtain ⟨cLow, cHigh⟩ := third
  obtain ⟨dLow, dHigh⟩ := fourth
  unfold String.utf8EncodeChar
  rw [toNat_ofNat (by omega)]
  simp only
  rw [if_neg (by omega), if_neg (by omega), if_neg (by omega)]
  simp only [List.cons.injEq, and_true]
  exact ⟨eq_ofNat (by omega), eq_ofNat (by omega), eq_ofNat (by omega), eq_ofNat (by omega)⟩

/-! ## Sequences under way -/

/-- Bytes that take a sequence to its end. -/
def Begun.Completes (sequence : Begun) (tail : Bytes) : Prop :=
  ∃ next others, tail = next :: others ∧ (sequence.least ≤ next ∧ next ≤ sequence.greatest) ∧
    others.length = sequence.after ∧ ∀ byte ∈ others, IsTail byte

/-- The decoder stands in `sequence` behind `front`, and whatever completes it makes a character. -/
structure Begun.Follows (sequence : Begun) (front : Bytes) : Prop where
  reads : ∀ rest, decodeFrom none (front ++ rest) = decodeFrom (some sequence) rest
  makes : ∀ tail, sequence.Completes tail → ∃ c, front ++ tail = String.utf8EncodeChar c
  open_ : sequence.least ≤ sequence.greatest

section
variable {a least greatest : UInt8} {bits : Nat}

theorem makes_two (first : a.toNat / 32 = 6) (long : 2 ≤ a.toNat % 32) {tail : Bytes}
    (completes : Begun.Completes ⟨bits, 0, 0x80, 0xBF⟩ tail) : ∃ c, a :: tail = String.utf8EncodeChar c := by
  obtain ⟨b, others, rfl, ⟨low, high⟩, length, _⟩ := completes
  obtain rfl := List.length_eq_zero_iff.mp length
  exact ⟨_, encodeChar_two first ⟨UInt8.le_iff_toNat_le.mp low, UInt8.le_iff_toNat_le.mp high⟩ long⟩

theorem makes_three (first : a.toNat / 16 = 14) (low : 0x80 ≤ least.toNat) (high : greatest.toNat ≤ 0xBF)
    (long : a.toNat % 16 = 0 → 0xA0 ≤ least.toNat) (scalar : a.toNat % 16 = 13 → greatest.toNat ≤ 0x9F) {tail : Bytes}
    (completes : Begun.Completes ⟨bits, 1, least, greatest⟩ tail) : ∃ c, a :: tail = String.utf8EncodeChar c := by
  obtain ⟨b, others, rfl, ⟨above, below⟩, length, tails⟩ := completes
  obtain ⟨c, rfl⟩ := List.length_eq_one_iff.mp length
  have third := tails c List.mem_cons_self
  obtain ⟨cLow, cHigh⟩ := id third
  simp only [UInt8.le_iff_toNat_le] at above below
  exact ⟨_, encodeChar_three first ⟨by omega, by omega⟩ third rfl (by omega) (by omega)⟩

theorem makes_four (first : a.toNat / 8 = 30) (low : 0x80 ≤ least.toNat) (high : greatest.toNat ≤ 0xBF)
    (long : a.toNat % 8 = 0 → 0x90 ≤ least.toNat) (most : a.toNat % 8 ≤ 4)
    (scalar : a.toNat % 8 = 4 → greatest.toNat ≤ 0x8F) {tail : Bytes}
    (completes : Begun.Completes ⟨bits, 2, least, greatest⟩ tail) : ∃ c, a :: tail = String.utf8EncodeChar c := by
  obtain ⟨b, others, rfl, ⟨above, below⟩, length, tails⟩ := completes
  obtain ⟨c, d, rfl⟩ := List.length_eq_two.mp length
  have third := tails c (by simp)
  have fourth := tails d (by simp)
  obtain ⟨cLow, cHigh⟩ := id third
  obtain ⟨dLow, dHigh⟩ := id fourth
  simp only [UInt8.le_iff_toNat_le] at above below
  exact ⟨_, encodeChar_four first ⟨by omega, by omega⟩ third fourth rfl (by omega) (by omega)⟩

end

theorem char_of_lead {byte : UInt8} {c : Char} (first : lead byte = .ascii c) : [byte] = String.utf8EncodeChar c := by
  simp only [lead, UInt8.lt_iff_toNat_lt, ← UInt8.toNat_inj, UInt8.reduceToNat] at first
  repeat' split at first
  all_goals cases first
  exact encodeChar_one (by omega)

/-- Whatever completes the sequence that a byte begins makes a character with it, and something does. -/
theorem makes_of_lead {byte : UInt8} {sequence : Begun} (first : lead byte = .begins sequence) :
    (∀ tail, sequence.Completes tail → ∃ c, byte :: tail = String.utf8EncodeChar c) ∧
      sequence.least ≤ sequence.greatest := by
  simp only [lead, UInt8.lt_iff_toNat_lt, ← UInt8.toNat_inj, UInt8.reduceToNat] at first
  repeat' split at first
  all_goals cases first
  · exact ⟨fun _ => makes_two (by omega) (by omega), by simp⟩
  · exact ⟨fun _ => makes_three (by omega) (by decide) (by decide) (fun _ => by decide) (by omega), by simp⟩
  · exact ⟨fun _ => makes_three (by omega) (by decide) (by decide) (by omega) (fun _ => by decide), by simp⟩
  · exact ⟨fun _ => makes_three (by omega) (by decide) (by decide) (by omega) (by omega), by simp⟩
  · exact ⟨fun _ => makes_four (by omega) (by decide) (by decide) (fun _ => by decide) (by omega) (by omega), by simp⟩
  · exact ⟨fun _ => makes_four (by omega) (by decide) (by decide) (by omega) (by omega) (by omega), by simp⟩
  · exact ⟨fun _ => makes_four (by omega) (by decide) (by decide) (by omega) (by omega) (fun _ => by decide), by simp⟩

/-! ## Broken fronts -/

theorem BeginsChar.of_prefix {front shorter : Bytes} (begins : BeginsChar front) (inside : shorter <+: front) :
    BeginsChar shorter := by
  obtain ⟨c, whole⟩ := begins
  exact ⟨c, inside.trans whole⟩

/-- No sequence of a character goes on behind that of another. -/
theorem eq_nil_of_encodeChar_append {c d : Char} {rest : Bytes}
    (same : String.utf8EncodeChar c ++ rest = String.utf8EncodeChar d) : rest = [] := by
  have longer : decode (String.utf8EncodeChar c ++ rest) = c :: decode rest := decodeFrom_encodeChar c rest
  have alone : decode (String.utf8EncodeChar d ++ []) = [d] := decodeFrom_encodeChar d []
  rw [List.append_nil, ← same, longer] at alone
  exact decode_eq_nil_iff.mp (List.cons.inj alone).2

/-- A front of a character that the next byte does not go on with is broken. -/
theorem isBroken_of_stops {bad rest tail : Bytes} {c : Char} (something : bad ≠ []) (missing : tail ≠ [])
    (whole : bad ++ tail = String.utf8EncodeChar c)
    (stops : ∀ byte, rest.head? = some byte → ¬ BeginsChar (bad ++ [byte])) : IsBroken bad rest := by
  have longest : ∀ front, front <+: bad ++ rest → BeginsChar front → front.length ≤ bad.length := by
    intro front inside begins
    refine Nat.le_of_not_lt fun longer => ?_
    cases rest with
    | nil =>
      have := inside.length_le
      simp at this
      omega
    | cons byte more =>
      have next : bad ++ [byte] <+: bad ++ byte :: more := ⟨more, by simp⟩
      exact stops byte rfl (begins.of_prefix (List.prefix_of_prefix_length_le next inside (by simp; omega)))
  refine ⟨?_, something, .inl ⟨c, tail, whole⟩, longest⟩
  intro d stands
  have short := longest _ stands ⟨d, List.prefix_refl _⟩
  obtain ⟨more, rfl⟩ := List.prefix_of_prefix_length_le stands (List.prefix_append bad rest) short
  rw [List.append_assoc] at whole
  exact missing (List.append_eq_nil_iff.mp (eq_nil_of_encodeChar_append whole)).2

/-- A byte that begins nothing is broken by itself. -/
theorem isBroken_of_invalid {byte : UInt8} (invalid : lead byte = .invalid) (rest : Bytes) : IsBroken [byte] rest := by
  have lone : ¬ BeginsChar [byte] := by
    -- the character could only be the replacement itself, whose sequence is longer than this byte
    rintro ⟨c, tail, whole⟩
    have alone : decode (String.utf8EncodeChar c ++ []) = [c] := decodeFrom_encodeChar c []
    have read : decode (byte :: tail) = replacement :: decode tail := by
      rw [decode, decodeFrom, invalid]
      rfl
    rw [List.append_nil, ← whole, List.singleton_append, read] at alone
    obtain ⟨rfl, nothing⟩ := List.cons.inj alone
    obtain rfl := decode_eq_nil_iff.mp nothing
    have three : (String.utf8EncodeChar replacement).length = 3 := by decide
    simp [← whole] at three
  have nothing : ∀ front, front <+: [byte] ++ rest → BeginsChar front → front = [] := by
    intro front inside begins
    cases front with
    | nil => rfl
    | cons first more =>
      obtain ⟨rfl, _⟩ := List.cons_prefix_cons.mp inside
      exact absurd (begins.of_prefix ⟨more, rfl⟩) lone
  refine ⟨?_, List.cons_ne_nil _ _, .inr rfl, ?_⟩
  · intro c stands
    exact encodeChar_ne_nil c (nothing _ stands ⟨c, List.prefix_refl _⟩)
  · intro front inside begins
    simp [nothing front inside begins]

theorem IsBroken.length_le {bad rest other more : Bytes} (first : IsBroken bad rest) (second : IsBroken other more)
    (same : bad ++ rest = other ++ more) : bad.length ≤ other.length := by
  rcases first.begins with begins | single
  · exact second.longest bad (same ▸ List.prefix_append bad rest) begins
  · rw [single]
    exact List.length_pos_of_ne_nil second.something

theorem IsBroken.unique {bad rest other more : Bytes} (first : IsBroken bad rest) (second : IsBroken other more)
    (same : bad ++ rest = other ++ more) : bad = other ∧ rest = more :=
  List.append_inj same (Nat.le_antisymm (first.length_le second same) (second.length_le first same.symm))

/-! ## The decoder -/

theorem Begun.Follows.exists_char {sequence : Begun} {front : Bytes} (follows : sequence.Follows front) :
    ∃ tail c, tail ≠ [] ∧ front ++ tail = String.utf8EncodeChar c := by
  have completes : sequence.Completes (sequence.least :: List.replicate sequence.after 0x80) := by
    refine ⟨_, _, rfl, ⟨UInt8.le_refl _, follows.open_⟩, by simp, ?_⟩
    intro byte member
    obtain rfl := List.eq_of_mem_replicate member
    exact ⟨by decide, by decide⟩
  obtain ⟨c, whole⟩ := follows.makes _ completes
  exact ⟨_, c, List.cons_ne_nil _ _, whole⟩

/-- A byte out of the range that is due goes on with no character. -/
theorem Begun.Follows.not_beginsChar {sequence : Begun} {front : Bytes} (follows : sequence.Follows front) {byte : UInt8}
    (outside : ¬ (sequence.least ≤ byte ∧ byte ≤ sequence.greatest)) : ¬ BeginsChar (front ++ [byte]) := by
  rintro ⟨c, tail, whole⟩
  have alone : decodeFrom none (String.utf8EncodeChar c ++ []) = [c] := decodeFrom_encodeChar c []
  rw [List.append_nil, ← whole, List.append_assoc, follows.reads, List.singleton_append, decodeFrom_broken _ outside]
    at alone
  exact List.cons_ne_nil _ _ (decode_eq_nil_iff.mp (List.cons.inj alone).2)

/-- A byte that is due goes on with the sequence. -/
theorem Begun.Follows.next {bits due : Nat} {least greatest byte : UInt8} {front : Bytes}
    (follows : Begun.Follows ⟨bits, due + 1, least, greatest⟩ front) (inside : least ≤ byte ∧ byte ≤ greatest) :
    Begun.Follows ⟨64 * bits + byte.toNat % 64, due, 0x80, 0xBF⟩ (front ++ [byte]) := by
  refine ⟨?_, ?_, by simp⟩
  · intro rest
    rw [List.append_assoc, follows.reads, List.singleton_append, decodeFrom, if_pos inside]
  · rintro _ ⟨second, others, rfl, ⟨low, high⟩, length, tails⟩
    rw [List.append_assoc]
    refine follows.makes _ ⟨byte, second :: others, rfl, inside, by simp [length], ?_⟩
    simp only [List.mem_cons, forall_eq_or_imp]
    exact ⟨⟨UInt8.le_iff_toNat_le.mp low, UInt8.le_iff_toNat_le.mp high⟩, tails⟩

/-- Behind the front of a sequence there is the rest of its character, or else the decoder finds the front broken. -/
theorem Begun.Follows.cases (rest : Bytes) : ∀ {sequence : Begun} {front : Bytes}, sequence.Follows front → front ≠ [] →
    (∃ c more, front ++ rest = String.utf8EncodeChar c ++ more) ∨
      ∃ bad more, front ++ rest = bad ++ more ∧ IsBroken bad more ∧
        decode (front ++ rest) = replacement :: decode more := by
  -- each byte that is due moves from the rest to the front
  induction rest with
  | nil =>
    intro sequence front follows something
    obtain ⟨tail, c, missing, whole⟩ := follows.exists_char
    refine .inr ⟨front, [], rfl, isBroken_of_stops something missing whole (by simp), ?_⟩
    exact follows.reads []
  | cons byte rest ih =>
    intro sequence front follows something
    by_cases inside : sequence.least ≤ byte ∧ byte ≤ sequence.greatest
    · obtain ⟨bits, after, least, greatest⟩ := sequence
      cases after with
      | zero =>
        obtain ⟨c, whole⟩ := follows.makes [byte] ⟨byte, [], rfl, inside, rfl, by simp⟩
        exact .inl ⟨c, rest, by rw [← whole, List.append_assoc, List.singleton_append]⟩
      | succ due =>
        have further := ih (follows.next inside) (by simp)
        rwa [List.append_assoc, List.singleton_append] at further
    · obtain ⟨tail, c, missing, whole⟩ := follows.exists_char
      refine .inr ⟨front, byte :: rest, rfl, isBroken_of_stops something missing whole ?_, ?_⟩
      · rintro _ ⟨⟩
        exact follows.not_beginsChar inside
      · rw [decode, follows.reads, decodeFrom_broken rest inside]
        rfl

/-- In front of any bytes stands a character, or the decoder finds them broken. -/
theorem decode_cases {bytes : Bytes} (something : bytes ≠ []) :
    (∃ c rest, bytes = String.utf8EncodeChar c ++ rest) ∨
      ∃ bad rest, bytes = bad ++ rest ∧ IsBroken bad rest ∧ decode bytes = replacement :: decode rest := by
  obtain ⟨byte, rest, rfl⟩ := List.exists_cons_of_ne_nil something
  cases first : lead byte with
  | ascii c => exact .inl ⟨c, rest, by rw [← char_of_lead first, List.singleton_append]⟩
  | begins sequence =>
    obtain ⟨makes, open_⟩ := makes_of_lead first
    have follows : sequence.Follows [byte] := by
      refine ⟨?_, makes, open_⟩
      intro rest
      rw [List.singleton_append, decodeFrom, first]
    exact follows.cases rest (List.cons_ne_nil _ _)
  | invalid =>
    refine .inr ⟨[byte], rest, rfl, isBroken_of_invalid first rest, ?_⟩
    rw [decode, decodeFrom, first]
    rfl

theorem decode_of_isBroken {bad rest : Bytes} (broken : IsBroken bad rest) :
    decode (bad ++ rest) = replacement :: decode rest := by
  have something : bad ++ rest ≠ [] := by simp [broken.something]
  rcases decode_cases something with ⟨c, more, whole⟩ | ⟨other, more, same, otherBroken, read⟩
  · exact absurd (whole ▸ List.prefix_append _ _) (broken.noChar c)
  · rw [read, (broken.unique otherBroken same).2]

theorem decodesTo_decode (bytes : Bytes) : DecodesTo bytes (decode bytes) := by
  by_cases empty : bytes = []
  · rw [empty]
    exact .nil
  · rcases decode_cases empty with ⟨c, rest, rfl⟩ | ⟨bad, rest, rfl, broken, read⟩
    · have shorter : rest.length < (String.utf8EncodeChar c ++ rest).length := by
        simp [c.utf8Size_pos]
      rw [decode, decodeFrom_encodeChar]
      exact .char c (decodesTo_decode rest)
    · have shorter : rest.length < (bad ++ rest).length := by
        simp [List.length_pos_iff, broken.something]
      rw [read]
      exact .broken broken (decodesTo_decode rest)
termination_by bytes.length

/-- Bytes stand for the text that the decoder gives and for no other. -/
theorem decodesTo_iff {bytes : Bytes} {text : Text} : DecodesTo bytes text ↔ decode bytes = text := by
  constructor
  · intro decodes
    induction decodes with
    | nil => rfl
    | char c _ ih => rw [← ih]; exact decodeFrom_encodeChar c _
    | broken broken _ ih => rw [decode_of_isBroken broken, ih]
  · rintro rfl
    exact decodesTo_decode bytes

end Cadence.Utf8
