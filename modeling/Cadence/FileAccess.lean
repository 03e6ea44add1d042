import Cadence.FileTree.Operations

/-!
What a run asks of the files around it. The operations are given by a record, so that one and the same
program runs on a tree held in memory, where it can be reasoned about, and on real files. An open file
is a handle of some type.
-/

namespace Cadence

/-- The operations on files, each in the monad `m`, with handles of type `Handle`. -/
structure FileAccess (m : Type → Type) (Handle : Type) where
  /-- What stands at the path, links followed, is a directory. -/
  isDirectory : Path → m (Except IoError Bool)
  /-- What stands at the path, links followed, is a regular file, which a device or a pipe is not. -/
  isFile : Path → m (Except IoError Bool)
  /-- The names in a directory, in any order. -/
  list : Path → m (Except IoError (List Text))
  /-- The location of a path free of links. -/
  canonical : Path → m (Except IoError Location)
  /-- Opens a file for reading. -/
  openFile : Path → m (Except IoError Handle)
  /-- Reads an open file to its end. -/
  read : Handle → m (Except IoError Bytes)
  /-- Makes an empty file, or empties the one there. -/
  create : Path → m (Except IoError Handle)
  /-- Gives an open file its content. A refusal comes with the number of bytes that were taken before it. -/
  write : Handle → Bytes → m (Except (Nat × IoError) PUnit)
  /-- Gives a file another name; a file of that name gives way. -/
  rename : Path → Path → m (Except IoError PUnit)
  /-- Removes a file. -/
  remove : Path → m (Except IoError PUnit)
  /-- The directory that relative paths begin at. -/
  workingDirectory : m Location

namespace FileTree

/-- A result of an operation that only looks. -/
def looked {α : Type} (result : Except FileFault α) : Except IoError α :=
  match result with
  | .error fault => .error fault.error
  | .ok value => .ok value

/-- A result of an operation that changes the tree: the tree stays as it is when the operation fails. -/
def changed (tree : FileTree) (result : Except FileFault FileTree) : Except IoError PUnit × FileTree :=
  match result with
  | .error fault => (.error fault.error, tree)
  | .ok after => (.ok ⟨⟩, after)

/-- The operations on a tree, from a working directory. -/
def access (here : Location) : FileAccess (StateM FileTree) Location where
  isDirectory path := fun tree => (looked (tree.isDirectory here path), tree)
  isFile path := fun tree => (looked (tree.isFile here path), tree)
  list path := fun tree => (looked (tree.list here path), tree)
  canonical path := fun tree => (looked (tree.canonical here path), tree)
  openFile path := fun tree => (looked (tree.locate here path), tree)
  read location := fun tree => (looked (tree.contentAt location), tree)
  create path := fun tree => match tree.create here path with
    | .error fault => (.error fault.error, tree)
    | .ok (location, after) => (.ok location, after)
  write location content := fun tree => (.ok ⟨⟩, tree.setContent location content)
  rename source target := fun tree => tree.changed (tree.rename here source target)
  remove path := fun tree => tree.changed (tree.remove here path)
  workingDirectory := fun tree => (here, tree)

end FileTree

end Cadence
