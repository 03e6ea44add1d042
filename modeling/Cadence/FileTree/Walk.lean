import Cadence.FileTree.Basic
import Cadence.FileTree.Fault
import Cadence.Utf8

/-!
The way along a path through a tree. Each name is looked up in the directory that the names before it
lead to; a link is replaced by the path that it holds, and at most 40 links are followed on one way.
`..` leads up from wherever the way has come, not back over the path as it is written. A slash at the
end of a path asks for a directory.

A name has at most 255 bytes and a path fewer than 4096.
-/

namespace Cadence

/-- A path as it is walked: where it begins, its pieces and whether a slash follows the last one. -/
structure Route where
  absolute : Bool
  names : List Text
  slashAfter : Bool
deriving DecidableEq

/-- The route of a path. -/
def Path.route (path : Path) : Route where
  absolute := path.isAbsolute
  names := (pieces '/' path.text).filter (· ≠ [])
  slashAfter := path.text.getLast? = some '/'

namespace FileTree

/-- The bytes that a name may have. -/
def longestName : Nat := 255

/-- The bytes that a path may not reach. -/
def pathBytes : Nat := 4096

/-- The links that are followed on one way. -/
def linkLimit : Nat := 40

/-- Where a way ends. -/
inductive Spot
  /-- At an entry that is no link, or at the root. -/
  | entry (location : Location)
  /-- At a name that its directory does not have. -/
  | free (location : Location)
deriving DecidableEq

/-- The end of a way, and whether a slash asks for a directory there. -/
structure Arrival where
  spot : Spot
  slashAfter : Bool
deriving DecidableEq

/-- What is left of a way: the directory it has come to, the names to go and the slash at its end. -/
structure Trail where
  directory : Location
  names : List Text
  slashAfter : Bool
deriving DecidableEq

/-- The way on from a link that stands in `directory`, with the names to go after it. -/
def Trail.throughLink (directory : Location) (target : Path) (rest : List Text) (slashAfter : Bool) :
    Trail where
  directory := if target.route.absolute then [] else directory
  names := target.route.names ++ rest
  slashAfter := slashAfter || (rest.isEmpty && target.route.slashAfter)

/-- Goes along a trail; `follow` goes on from a link. For an entry that is about to be made, a slash
after the last name is refused before the name is looked up. -/
def walkNames (tree : FileTree) (making : Bool) (follow : Trail → Except FileFault Arrival)
    (slashAfter : Bool) (directory : Location) : List Text → Except FileFault Arrival
  | [] => .ok ⟨.entry directory, slashAfter⟩
  | name :: rest =>
    if !tree.isDirectoryAt directory then .error .notADirectory
    else if name = ['.'] then walkNames tree making follow slashAfter directory rest
    else if name = ['.', '.'] then walkNames tree making follow slashAfter directory.tail rest
    else if making && rest.isEmpty && slashAfter then .error .isADirectory
    else if longestName < (Utf8.encode name).length then .error .nameTooLong
    else match tree.entryAt (name :: directory) with
      | none => if rest.isEmpty then .ok ⟨.free (name :: directory), slashAfter⟩ else .error .notFound
      | some (.link target) => follow (.throughLink directory target rest slashAfter)
      | some _ => walkNames tree making follow slashAfter (name :: directory) rest

/-- Goes along a trail and follows at most so many links. -/
def walk (tree : FileTree) (making : Bool) : Nat → Trail → Except FileFault Arrival
  | 0, trail =>
    walkNames tree making (fun _ => .error .tooManyLinks) trail.slashAfter trail.directory trail.names
  | links + 1, trail =>
    walkNames tree making (walk tree making links) trail.slashAfter trail.directory trail.names

/-- A path that no operation takes. -/
def pathFault? (path : Path) : Option FileFault :=
  if '\x00' ∈ path.text then some .embeddedNul
  else if path.text = [] then some .notFound
  else if pathBytes ≤ (Utf8.encode path.text).length then some .nameTooLong
  else none

/-- The trail of a path from a working directory. -/
def Trail.ofPath (here : Location) (path : Path) : Trail :=
  ⟨if path.route.absolute then [] else here, path.route.names, path.route.slashAfter⟩

/-- The location of what stands at the end of an arrival; a slash admits a directory only. -/
def reached (tree : FileTree) (arrival : Arrival) : Except FileFault Location :=
  match arrival.spot with
  | .free _ => .error .notFound
  | .entry location => match tree.entryAt location with
    | none => .error .notFound
    | some entry => if arrival.slashAfter && entry ≠ .directory then .error .notADirectory else .ok location

/-- The location that a trail leads to, every link followed. -/
def follow (tree : FileTree) (trail : Trail) : Except FileFault Location :=
  match walk tree false linkLimit trail with
  | .error fault => .error fault
  | .ok arrival => tree.reached arrival

/-- The location that a path leads to, every link followed. -/
def locate (tree : FileTree) (here : Location) (path : Path) : Except FileFault Location :=
  match pathFault? path with
  | some fault => .error fault
  | none => tree.follow (.ofPath here path)

/-- The directory and the last name of a path whose last name is not followed. -/
structure Parent where
  directory : Location
  name : Text
  slashAfter : Bool
deriving DecidableEq

/-- Finds the directory that the last name of a path stands in. -/
def locateParent (tree : FileTree) (here : Location) (path : Path) : Except FileFault Parent :=
  match pathFault? path with
  | some fault => .error fault
  | none =>
    let trail := Trail.ofPath here path
    match tree.follow { trail with names := trail.names.dropLast, slashAfter := true } with
    | .error fault => .error fault
    | .ok directory => match trail.names.getLast? with
      | none => .error .busy
      | some name =>
        if name = ['.'] ∨ name = ['.', '.'] then .error .busy
        else if longestName < (Utf8.encode name).length then .error .nameTooLong
        else .ok ⟨directory, name, trail.slashAfter⟩

end FileTree

end Cadence
