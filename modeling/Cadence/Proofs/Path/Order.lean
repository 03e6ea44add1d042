import Mathlib.Data.List.Lex
import Cadence.Proofs.Path.Steps
import Cadence.Proofs.Text.ByteOrder

/-!
The order of paths, by their steps and the bytes of the names in them. Paths that lead to entries of one directory are
in the order of their names (`Path.before_join`).
-/

namespace Cadence.Path

/-- The beginnings and the way up come before all names. -/
def Step.rank : Step → Nat
  | .root => 0
  | .here => 1
  | .up => 2
  | .name _ => 3

/-- The order of steps: names by their bytes. -/
def Step.Before : Step → Step → Prop
  | .name first, .name second => Utf8.encode first < Utf8.encode second
  | first, second => first.rank < second.rank

/-- The order of paths: at the first difference the lesser step decides. -/
def Before (first second : Path) : Prop :=
  List.Lex Step.Before first.steps second.steps

theorem before_join {directory : Path} (some : directory.text ≠ []) {first second : Text}
    (firstNamed : ('/' ∉ first ∧ first ≠ []) ∧ first ≠ ['.'] ∧ first ≠ ['.', '.'])
    (secondNamed : ('/' ∉ second ∧ second ≠ []) ∧ second ≠ ['.'] ∧ second ≠ ['.', '.'])
    (less : Utf8.encode first < Utf8.encode second) :
    (directory.join ⟨first⟩).Before (directory.join ⟨second⟩) := by
  obtain ⟨⟨plain, something⟩, notHere, notUp⟩ := firstNamed
  obtain ⟨⟨otherPlain, otherSomething⟩, otherNotHere, otherNotUp⟩ := secondNamed
  rw [Before, steps_join_name plain (Step.ofPiece?_eq_name_iff.mpr ⟨rfl, something, notHere, notUp⟩) some,
    steps_join_name otherPlain (Step.ofPiece?_eq_name_iff.mpr ⟨rfl, otherSomething, otherNotHere, otherNotUp⟩) some]
  have later : Step.Before (.name first) (.name second) := less
  exact List.Lex.append_left _ (.rel later) _

end Cadence.Path
