import Cadence.FileTree.Walk

/-!
What can be done with the files of a tree, from a working directory `here`. Looking, opening and making
a file follow links all the way; renaming and removing act on the entry itself. An open file is known
by its location, so it stays the same file however its path changes.
-/

namespace Cadence.FileTree

/-- A directory, or else a file, stands at the end of the path. -/
def isDirectory (tree : FileTree) (here : Location) (path : Path) : Except FileFault Bool :=
  (tree.locate here path).map tree.isDirectoryAt

def isFile (tree : FileTree) (here : Location) (path : Path) : Except FileFault Bool :=
  (tree.locate here path).map tree.isFileAt

def list (tree : FileTree) (here : Location) (path : Path) : Except FileFault (List Text) :=
  match tree.locate here path with
  | .error fault => .error fault
  | .ok location =>
    if tree.isDirectoryAt location then .ok (tree.namesIn location) else .error .notADirectory

/-- The location of a path free of links. The path may be of any length. -/
def canonical (tree : FileTree) (here : Location) (path : Path) : Except FileFault Location :=
  if '\x00' ∈ path.text then .error .embeddedNul
  else if path.text = [] then .error .notFound
  else tree.follow (.ofPath here path)

/-- What an open file holds. -/
def contentAt (tree : FileTree) (location : Location) : Except FileFault Bytes :=
  match tree.entryAt location with
  | some (.file content) => .ok content
  | some .directory => .error .isADirectory
  | _ => .error .notFound

/-- Makes an empty file where the path leads, or empties the one there. -/
def create (tree : FileTree) (here : Location) (path : Path) : Except FileFault (Location × FileTree) :=
  match pathFault? path with
  | some fault => .error fault
  | none => match tree.walk true linkLimit (.ofPath here path) with
    | .error fault => .error fault
    | .ok arrival => match arrival.spot with
      | .free location => .ok (location, tree.put location (.file []))
      | .entry _ => match tree.reached arrival with
        | .error fault => .error fault
        | .ok location =>
          if tree.isDirectoryAt location then .error .isADirectory
          else .ok (location, tree.put location (.file []))

/-- Gives an open file its content. -/
def setContent (tree : FileTree) (location : Location) (content : Bytes) : FileTree :=
  tree.put location (.file content)

/-- Renames a file or a link; a file or a link that bears the new name gives way. Directories are not
renamed. -/
def rename (tree : FileTree) (here : Location) (source target : Path) : Except FileFault FileTree :=
  match tree.locateParent here source with
  | .error fault => .error fault
  | .ok old => match tree.locateParent here target with
    | .error fault => .error fault
    | .ok new => match tree.entryAt (old.name :: old.directory) with
      | none => .error .notFound
      | some .directory => .error .isADirectory
      | some entry =>
        if old.slashAfter || new.slashAfter then .error .notADirectory
        else if tree.isDirectoryAt (new.name :: new.directory) then .error .isADirectory
        else if old.name :: old.directory = new.name :: new.directory then .ok tree
        else .ok (tree.move (old.name :: old.directory) (new.name :: new.directory) entry)

/-- Removes a file or a link. -/
def remove (tree : FileTree) (here : Location) (path : Path) : Except FileFault FileTree :=
  match tree.locateParent here path with
  | .error fault => .error fault
  | .ok old => match tree.entryAt (old.name :: old.directory) with
    | none => .error .notFound
    | some .directory => .error .isADirectory
    | some _ =>
      if old.slashAfter then .error .notADirectory else .ok (tree.erase (old.name :: old.directory))

/-! ## Laying out a tree -/

/-- The location that a name leads to from a directory, a directory being made where there is nothing. -/
def enterOrMake (tree : FileTree) (directory : Location) (name : Text) : Location × FileTree :=
  match tree.follow ⟨directory, [name], false⟩ with
  | .ok location => (location, tree)
  | .error _ => (name :: directory, tree.put (name :: directory) .directory)

/-- Goes along names and makes the directories that are missing. -/
def makeDirectories (tree : FileTree) (directory : Location) : List Text → Location × FileTree
  | [] => (directory, tree)
  | name :: rest =>
    let (location, after) := tree.enterOrMake directory name
    after.makeDirectories location rest

/-- What to lay out at a path. -/
inductive Layout
  | file (content : Bytes)
  | directory
  | link (target : Path)
deriving DecidableEq

/-- Lays an entry out at a path, with the directories above it. A file goes where links lead. -/
def layOut (tree : FileTree) (here : Location) (path : Path) (layout : Layout) : FileTree :=
  let trail := Trail.ofPath here path
  match layout with
  | .directory => (tree.makeDirectories trail.directory trail.names).2
  | .file content =>
    let (_, prepared) := tree.makeDirectories trail.directory trail.names.dropLast
    match prepared.create here path with
    | .error _ => prepared
    | .ok (location, made) => made.setContent location content
  | .link target =>
    let (directory, prepared) := tree.makeDirectories trail.directory trail.names.dropLast
    match trail.names.getLast? with
    | none => prepared
    | some name => prepared.put (name :: directory) (.link target)

/-! ## Listing a tree -/

/-- The path from a directory down to a location below it. -/
def pathBelow? (directory location : Location) : Option Text :=
  if location = directory then some []
  else match location with
    | [] => none
    | name :: parent => (pathBelow? directory parent).map fun path =>
        if path.isEmpty then name else path ++ '/' :: name

/-- Every entry below a directory, by its path from there; the path of a directory ends in a slash. -/
def below (tree : FileTree) (directory : Location) : List (Text × Entry) :=
  tree.entries.filterMap fun (location, entry) =>
    match pathBelow? directory location with
    | none => none
    | some [] => none
    | some path => some (if entry = .directory then path ++ ['/'] else path, entry)

end Cadence.FileTree
