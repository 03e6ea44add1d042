import Cadence.Proofs.FileTree.Frames
import Cadence.Proofs.Path.Names
import Cadence.Proofs.Text.ByteOrder

/-!
Entries of a directory and the paths to them. What can be looked up in a directory can also be looked up through a
path that leads there (`locate_join_iff`), but for what is out of reach: the path may be too long with the name at its
end, and the links on it count together with those that the entry leads through (`InReach`).
-/

namespace Cadence

theorem Path.text_join (directory : Path) {name : Text} (plain : '/' ∉ name) : ∃ front,
    (directory.join ⟨name⟩).text = front ++ name ∧ (front = directory.text ∨ front = directory.text ++ ['/']) := by
  unfold join
  rw [if_neg (by simp [plain])]
  split
  · exact ⟨directory.text, rfl, .inl rfl⟩
  · exact ⟨directory.text ++ ['/'], by simp, .inr rfl⟩

theorem Path.name_eq_of_join_eq {directory : Path} {name other : Text} (named : '/' ∉ name ∧ name ≠ [])
    (otherNamed : '/' ∉ other ∧ other ≠ []) (same : directory.join ⟨name⟩ = directory.join ⟨other⟩) : name = other := by
  have names := congrArg (fun path => path.route.names) same
  simpa [named, otherNamed] using names

namespace FileTree

section
variable {name : Text} (here : Location) (plain : '/' ∉ name) (something : name ≠ [])
include plain something

theorem Trail.ofPath_join (input : Path) : Trail.ofPath here (input.join ⟨name⟩) =
    ⟨(Trail.ofPath here input).directory, input.route.names ++ [name], false⟩ := by
  rw [ofPath, Path.route_names_join plain something, Path.slashAfter_join plain something]
  show Trail.mk (if (input.join ⟨name⟩).isAbsolute then _ else _) _ _ = _
  rw [Path.isAbsolute_join (Path.relative_of_plain plain)]
  rfl

theorem Trail.ofPath_name : Trail.ofPath here ⟨name⟩ = ⟨here, [name], false⟩ := by
  have alone : (Path.mk []).join ⟨name⟩ = ⟨name⟩ := by
    rw [Path.join, if_neg (by simp [plain]), if_pos (.inl rfl), List.nil_append]
  rw [← alone]
  exact ofPath_join here plain something ⟨[]⟩

end

/-- The entry of this name, in the directory that the input leads to, can be looked up through the input: the path is
not too long, and on it and behind the entry there are no more links than are followed on one way. -/
structure InReach (tree : FileTree) (here : Location) (input : Path) (directory : Location) (name : Text) : Prop where
  short : (Utf8.encode (input.join ⟨name⟩).text).length < pathBytes
  few : (linksOn tree linkLimit (.ofPath here input)).length +
    (linksOn tree linkLimit (.ofPath directory ⟨name⟩)).length ≤ linkLimit

theorem inReach_iff {tree : FileTree} {here directory : Location} {input : Path} {name : Text} :
    tree.InReach here input directory name ↔ (Utf8.encode (input.join ⟨name⟩).text).length < pathBytes ∧
      (linksOn tree linkLimit (.ofPath here input)).length +
        (linksOn tree linkLimit (.ofPath directory ⟨name⟩)).length ≤ linkLimit :=
  ⟨fun ⟨short, few⟩ => ⟨short, few⟩, fun ⟨short, few⟩ => ⟨short, few⟩⟩

instance (tree : FileTree) (here : Location) (input : Path) (directory : Location) (name : Text) :
    Decidable (tree.InReach here input directory name) := decidable_of_iff _ inReach_iff.symm

section
variable {tree : FileTree} {here directory : Location} {input : Path} {name : Text}
  (located : tree.locate here input = .ok directory) (inside : tree.isDirectoryAt directory = true)
  (plain : '/' ∉ name) (something : name ≠ [])
include located plain something

theorem pathFault?_join_iff : pathFault? (input.join ⟨name⟩) = none ↔
    pathFault? ⟨name⟩ = none ∧ (Utf8.encode (input.join ⟨name⟩).text).length < pathBytes := by
  obtain ⟨noNul, _, _⟩ := pathFault?_eq_none_iff.mp (locate_eq_ok_iff.mp located).1
  obtain ⟨front, joined, whole⟩ := Path.text_join input plain
  have noNulBefore : '\x00' ∉ front := by
    rcases whole with rfl | rfl <;> simp [noNul]
  simp only [pathFault?_eq_none_iff, joined, Utf8.encode_append, List.length_append, List.mem_append, noNulBefore,
    false_or, something, List.append_eq_nil_iff, ne_eq, and_false, not_false_eq_true, true_and, and_assoc]
  refine and_congr_right fun _ => ⟨fun short => ⟨?_, short⟩, fun both => both.2⟩
  exact Nat.lt_of_le_of_lt (Nat.le_add_left _ _) short

include inside

/-- From the directory on, the way goes as from the working directory, with the links that are left. -/
theorem walk_join_eq_ok_iff {arrival : Arrival} :
    walk tree false linkLimit (.ofPath here (input.join ⟨name⟩)) = .ok arrival ↔
      walk tree false linkLimit (.ofPath directory ⟨name⟩) = .ok arrival ∧
        (linksOn tree linkLimit (.ofPath here input)).length +
          (linksOn tree linkLimit (.ofPath directory ⟨name⟩)).length ≤ linkLimit := by
  obtain ⟨_, _, arrived, _⟩ := follow_eq_ok_iff.mp (locate_eq_ok_iff.mp located).2
  have within := linksOn_length_le arrived
  obtain ⟨led, same⟩ :=
    walk_slash linkLimit (Trail.ofPath here input).directory input.route.names input.route.slashAfter arrived
  replace same : _ = linksOn tree linkLimit (.ofPath here input) := same
  rw [Trail.ofPath_join here plain something, Trail.ofPath_name directory plain something, walk_concat led inside, same,
    walk_eq_ok_iff_of_le linkLimit (Nat.sub_le _ _)]
  refine and_congr_right fun _ => ?_
  omega

/-- Through a path to a directory its entries are found that are in reach. -/
theorem locate_join_iff {location : Location} : tree.locate here (input.join ⟨name⟩) = .ok location ↔
    tree.locate directory ⟨name⟩ = .ok location ∧ tree.InReach here input directory name := by
  simp only [locate_eq_ok_iff, follow_eq_ok_iff, pathFault?_join_iff located plain something,
    walk_join_eq_ok_iff located inside plain something, inReach_iff]
  constructor
  · rintro ⟨⟨valid, short⟩, slashAfter, entry, ⟨arrived, few⟩, stands, asked⟩
    exact ⟨⟨valid, slashAfter, entry, arrived, stands, asked⟩, short, few⟩
  · rintro ⟨⟨valid, slashAfter, entry, arrived, stands, asked⟩, short, few⟩
    exact ⟨⟨valid, short⟩, slashAfter, entry, ⟨arrived, few⟩, stands, asked⟩

theorem contentOf_join_iff {content : Bytes} : tree.contentOf here (input.join ⟨name⟩) = .ok content ↔
    tree.contentOf directory ⟨name⟩ = .ok content ∧ tree.InReach here input directory name := by
  simp only [contentOf_eq_ok_iff, locate_join_iff located inside plain something]
  constructor
  · rintro ⟨location, ⟨found, reach⟩, stands⟩
    exact ⟨⟨location, found, stands⟩, reach⟩
  · rintro ⟨⟨location, found, stands⟩, reach⟩
    exact ⟨location, ⟨found, reach⟩, stands⟩

end

end FileTree

end Cadence
