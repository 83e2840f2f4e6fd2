import SniffProxy.Error

/-!
# Files

The files that a configuration may name: regular files below the working directory, known by their
relative paths. `FileTree.readText` answers the text of one, or what the system says instead.
-/

namespace SniffProxy

/-- Regular files by their paths relative to the working directory. -/
structure FileTree where
  files : List (String × Bytes)
  deriving Repr

namespace FileTree

/-- The names between the slashes of a path, without empty ones. -/
def components (path : List Char) : List (List Char) :=
  (Text.splitAt '/' path).filter fun name => !name.isEmpty

/-- The contents of the file with exactly these names. -/
def file? (tree : FileTree) (names : List (List Char)) : Option Bytes :=
  (tree.files.find? fun entry => components entry.1.toList = names).map fun entry => entry.2

/-- Whether a file lies somewhere below these names. -/
def isDirectory (tree : FileTree) (names : List (List Char)) : Bool :=
  tree.files.any fun entry =>
    let entryNames := components entry.1.toList
    names.isPrefixOf entryNames && names.length < entryNames.length

/-- Where a walk along a path has arrived. -/
inductive Place where
  /-- A directory at or below the working directory. -/
  | inside (names : List (List Char))
  /-- A directory that is not below the working directory. -/
  | outside

/-- The directory above a place. -/
def Place.parent : Place → Place
  | .inside [] => .outside
  | .inside (name :: names) => .inside (name :: names).dropLast
  | .outside => .outside

/-- The longest name of a file, in bytes. -/
def maxNameLength : Nat := 255

/-- Walks along the remaining names of a path. A path that ends in a slash must end at a
directory. -/
def walk (tree : FileTree) (endsInSlash : Bool) : Place → List (List Char) → Except IoError Bytes
  | _, [] => .error .fileIsDirectory
  | place, name :: rest =>
    if name = ['.'] then walk tree endsInSlash place rest
    else if name = ['.', '.'] then walk tree endsInSlash place.parent rest
    else if maxNameLength < (utf8 (String.ofList name)).length then .error .fileNameTooLong
    else
      match place with
      | .outside => .error .fileNotFound
      | .inside names =>
        match tree.file? (names ++ [name]) with
        | some bytes =>
          if rest = [] ∧ endsInSlash = false then .ok bytes else .error .fileNotDirectory
        | none =>
          if tree.isDirectory (names ++ [name]) then
            walk tree endsInSlash (.inside (names ++ [name])) rest
          else .error .fileNotFound

/-- The bytes of the file at a path. -/
def readBytes (tree : FileTree) (path : String) : Except IoError Bytes :=
  let cs := path.toList
  if Char.ofNat 0 ∈ cs then .error .fileNameHasNul
  else if cs = [] then .error .fileNotFound
  else
    let start := if cs.head? = some '/' then Place.outside else Place.inside []
    walk tree (cs.getLast? = some '/') start (components cs)

/-- The text of the file at a path. -/
def readText (tree : FileTree) (path : String) : Except IoError String :=
  match tree.readBytes path with
  | .error error => .error error
  | .ok bytes =>
    match decodeUtf8 bytes with
    | some text => .ok text
    | none => .error .fileNotText

end FileTree

end SniffProxy
