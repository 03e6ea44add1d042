import Mathlib.Data.Char
import Cadence.Text
import Cadence.Utf8

/-!
The order of texts. A text comes before another exactly if its bytes do (`Text.precedes_iff`), for the sequences of two
characters differ first in a byte that is the lesser one for the lesser character.
-/

namespace Cadence

namespace Utf8

private theorem ofNat_cons_lt_iff {m n : Nat} (first : m < 256) (second : n < 256) {rest more : Bytes} :
    UInt8.ofNat m :: rest < UInt8.ofNat n :: more ↔ m < n ∨ m = n ∧ rest < more := by
  rw [List.cons_lt_cons_iff, UInt8.lt_iff_toNat_lt, ← UInt8.toNat_inj, UInt8.toNat_ofNat_of_lt' first,
    UInt8.toNat_ofNat_of_lt' second]

/-- The sequence of the lesser character comes first, whatever follows the two. -/
theorem encodeChar_lt {c d : Char} (less : c < d) (rest more : Bytes) :
    String.utf8EncodeChar c ++ rest < String.utf8EncodeChar d ++ more := by
  have order : c.val.toNat < d.val.toNat := less
  have bound : d.val.toNat < 0x110000 := by
    rcases d.valid with low | high
    · exact Nat.lt_trans low (by decide)
    · exact high.2
  unfold String.utf8EncodeChar
  generalize c.val.toNat = m at *
  generalize d.val.toNat = n at *
  have lead : ∀ k < 0x110000, k / 262144 % 8 = k / 262144 := by omega
  have firstLead := lead m (Nat.lt_trans order bound)
  have secondLead := lead n bound
  simp only
  -- the lead bytes of longer sequences are greater, and in sequences of one length the bytes are digits of the character
  repeat' split
  all_goals
    simp (disch := omega) only [List.cons_append, List.nil_append, ofNat_cons_lt_iff]
    omega

theorem encode_cons (c : Char) (rest : Text) : encode (c :: rest) = String.utf8EncodeChar c ++ encode rest :=
  List.flatMap_cons

@[simp] theorem encode_append (first second : Text) : encode (first ++ second) = encode first ++ encode second :=
  List.flatMap_append

theorem append_lt_append_iff (front : Bytes) {rest more : Bytes} : front ++ rest < front ++ more ↔ rest < more := by
  induction front with
  | nil => rfl
  | cons byte front ih => simp [ih]

end Utf8

theorem Text.precedes_iff {first second : Text} :
    first.precedes second = true ↔ Utf8.encode first < Utf8.encode second := by
  induction first generalizing second with
  | nil =>
    cases second with
    | nil => simp [Text.precedes, Utf8.encode]
    | cons d more =>
      have something : Utf8.encode (d :: more) ≠ [] := by simp [Utf8.encode]
      obtain ⟨byte, bytes, begun⟩ := List.exists_cons_of_ne_nil something
      rw [begun]
      simp [Text.precedes, Utf8.encode]
  | cons c rest ih =>
    cases second with
    | nil => simp [Text.precedes, Utf8.encode]
    | cons d more =>
      rw [Text.precedes, Utf8.encode_cons, Utf8.encode_cons]
      rcases lt_trichotomy c d with less | rfl | greater
      · simp [less, Utf8.encodeChar_lt less]
      · rw [Utf8.append_lt_append_iff, ← ih]
        simp
      · have backwards := Utf8.encodeChar_lt greater (Utf8.encode more) (Utf8.encode rest)
        simp [le_of_lt greater, ne_of_gt greater, List.lt_asymm backwards]

/-! ## Sorted lists -/

theorem insertBy_perm {α : Type} (key : α → Text) (x : α) (all : List α) : (insertBy key x all).Perm (x :: all) := by
  induction all with
  | nil => rfl
  | cons y rest ih =>
    rw [insertBy]
    split
    · exact (ih.cons y).trans (.swap x y rest)
    · rfl

theorem sortBy_perm {α : Type} (key : α → Text) (all : List α) : (sortBy key all).Perm all := by
  induction all with
  | nil => rfl
  | cons x rest ih => exact (insertBy_perm key x _).trans (ih.cons x)

theorem Text.precedes_of_not_precedes {first second : Text} (other : first ≠ second)
    (not : ¬ first.precedes second = true) : second.precedes first = true := by
  induction first generalizing second with
  | nil =>
    cases second with
    | nil => exact absurd rfl other
    | cons d more => simp [precedes] at not
  | cons c rest ih =>
    cases second with
    | nil => rfl
    | cons d more =>
      simp only [precedes, Bool.or_eq_true, Bool.and_eq_true, decide_eq_true_eq, not_or] at not ⊢
      rcases lt_trichotomy c d with less | rfl | greater
      · exact absurd less not.1
      · exact .inr ⟨rfl, ih (fun same => other (by rw [same])) fun behind => not.2 ⟨rfl, behind⟩⟩
      · exact .inl greater

private theorem insertBy_increasing {x : Text} {all : List Text} (fresh : x ∉ all)
    (increasing : all.Pairwise (Utf8.encode · < Utf8.encode ·)) :
    (insertBy id x all).Pairwise (Utf8.encode · < Utf8.encode ·) := by
  induction all with
  | nil => exact List.pairwise_singleton _ x
  | cons y rest ih =>
    rw [List.mem_cons, not_or] at fresh
    obtain ⟨first, increasingRest⟩ := List.pairwise_cons.mp increasing
    rw [insertBy]
    split
    · rename_i precedes
      refine List.pairwise_cons.mpr ⟨?_, ih fresh.2 increasingRest⟩
      intro z member
      rcases List.mem_cons.mp ((insertBy_perm id x rest).mem_iff.mp member) with rfl | member
      · exact Text.precedes_iff.mp precedes
      · exact first z member
    · rename_i notPrecedes
      have less := Text.precedes_iff.mp (Text.precedes_of_not_precedes (Ne.symm fresh.1) notPrecedes)
      refine List.pairwise_cons.mpr ⟨?_, increasing⟩
      intro z member
      rcases List.mem_cons.mp member with rfl | member
      · exact less
      · exact List.lt_trans less (first z member)

theorem sortBy_increasing {all : List Text} (distinct : all.Nodup) :
    (sortBy id all).Pairwise (Utf8.encode · < Utf8.encode ·) := by
  induction all with
  | nil => exact List.Pairwise.nil
  | cons x rest ih =>
    obtain ⟨fresh, distinct⟩ := List.nodup_cons.mp distinct
    exact insertBy_increasing (fun member => fresh ((sortBy_perm id rest).mem_iff.mp member)) (ih distinct)

/-- Sorting gives the same whatever order the texts come in, if none of them occurs twice. -/
theorem sortBy_eq_of_perm {first second : List Text} (distinct : first.Nodup) (perm : first.Perm second) :
    sortBy id first = sortBy id second := by
  refine List.Perm.eq_of_pairwise ?_ (sortBy_increasing distinct) (sortBy_increasing (perm.nodup_iff.mp distinct))
    ((sortBy_perm id first).trans (perm.trans (sortBy_perm id second).symm))
  intro a b _ _ less greater
  exact absurd greater (List.lt_asymm less)

end Cadence
