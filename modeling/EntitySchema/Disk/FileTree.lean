import EntitySchema.Disk.FilePath
import EntitySchema.Text.Utf8

/-! A directory with files and directories below it, and how paths into it are read
and written. Names are distinguished by case. -/
namespace EntitySchema

/-- Why a file could not be used. -/
inductive FileProblem where
  | notFound
  | notDirectory
  | isDirectory
  | nameTooLong
  | nulInName
  | other (text : String)
  deriving DecidableEq, Repr

def FileProblem.message : FileProblem → String
  | .notFound => "No such file or directory (os error 2)"
  | .notDirectory => "Not a directory (os error 20)"
  | .isDirectory => "Is a directory (os error 21)"
  | .nameTooLong => "File name too long (os error 36)"
  | .nulInName => "file name contained an unexpected NUL byte"
  | .other text => text

/-- Read access to files, with a bound on how deeply distinct source files among
them can include each other. -/
structure Disk where
  read : String → Except FileProblem (List UInt8)
  nesting : Nat

/-- Files by their paths from the root, and the directories besides those that the
files stand in. -/
structure FileTree where
  files : List (List String × List UInt8)
  directories : List (List String)

namespace FileTree

def empty : FileTree := ⟨[], []⟩

inductive Node where
  | file (bytes : List UInt8)
  | directory
  deriving DecidableEq

/-- A place below the root by the names that lead there, or, without names, some
directory above the root. Of what stands above the root nothing else is known. -/
abbrev Place := Option (List String)

def Place.root : Place := some []

/-- The directory that a place is in. -/
def Place.up : Place → Place
  | none | some [] => none
  | some names => some names.dropLast

/-- What stands at a place. -/
def nodeAt? (tree : FileTree) : Place → Option Node
  | none => some .directory
  | some names =>
    match tree.files.find? (·.1 == names) with
    | some file => some (.file file.2)
    | none =>
      if names.isEmpty || tree.directories.any (names.isPrefixOf ·) ||
          tree.files.any (names.isPrefixOf ·.1) then
        some .directory
      else none

/-- The place of a name in a directory. -/
def enter (place : Place) (name : List Char) : Except FileProblem Place :=
  if (Text.Utf8.encode name).length > 255 then .error .nameTooLong
  else
    match place with
    | none => .error .notFound
    | some names => .ok (some (names ++ [String.ofList name]))

/-- Goes on from a place along the segments of a path. All places passed have to be
directories. -/
def walk (tree : FileTree) (place : Place) : List (List Char) → Except FileProblem Place
  | [] => .ok place
  | segment :: rest =>
    match tree.nodeAt? place with
    | none => .error .notFound
    | some (.file _) => .error .notDirectory
    | some .directory =>
      if FilePath.isVoid segment then tree.walk place rest
      else if segment = ['.', '.'] then tree.walk place.up rest
      else
        match enter place segment with
        | .ok place => tree.walk place rest
        | .error problem => .error problem

/-- Checks that a path can be looked up in the tree. -/
def admit? (path : String) : Except FileProblem Unit :=
  if path.toList.contains '\x00' then .error .nulInName
  else if path.isEmpty then .error .notFound
  else if (utf8 path).length > 4095 then .error .nameTooLong
  else if FilePath.isAbsolute path then .error .notFound
  else .ok ()

def read (tree : FileTree) (path : String) : Except FileProblem (List UInt8) := do
  admit? path
  let place ← tree.walk .root (FilePath.segments path)
  match tree.nodeAt? place with
  | some (.file bytes) => return bytes
  | some .directory => throw .isDirectory
  | none => throw .notFound

/-- Puts a file below the root, replacing the one that stands there. -/
def put (tree : FileTree) (names : List String) (bytes : List UInt8) : FileTree :=
  { tree with files := tree.files.filter (·.1 != names) ++ [(names, bytes)] }

/-- Writes a file, which is created if the directory it belongs in exists. A path with
a slash at its end can only mean a directory. -/
def write (tree : FileTree) (path : String) (bytes : List UInt8) : Except FileProblem FileTree := do
  admit? path
  let segments := FilePath.segments path
  let named := (segments.reverse.dropWhile List.isEmpty).reverse
  let place ← tree.walk .root named.dropLast
  match tree.nodeAt? place with
  | none => throw .notFound
  | some (.file _) => throw .notDirectory
  | some .directory =>
    let name := named.getLast?.getD []
    if named.length < segments.length || FilePath.isVoid name || name = ['.', '.'] then
      throw .isDirectory
    else
      let place ← enter place name
      match tree.nodeAt? place, place with
      | some .directory, _ => throw .isDirectory
      | _, some names => return tree.put names bytes
      | _, none => throw .notFound

/-- Adds a directory with all directories above it. -/
def addDirectory (tree : FileTree) (path : String) : FileTree :=
  { tree with
    directories := tree.directories ++ [(FilePath.components path).map String.ofList] }

/-- Adds a file with all directories above it. -/
def addFile (tree : FileTree) (path : String) (bytes : List UInt8) : FileTree :=
  tree.put ((FilePath.components path).map String.ofList) bytes

/-- All files with their paths from the root. -/
def toList (tree : FileTree) : List (String × List UInt8) :=
  tree.files.map fun file => ("/".intercalate file.1, file.2)

/-- A chain of includes needs a new name at each step, so that it is no longer than
all files together. -/
def disk (tree : FileTree) : Disk :=
  ⟨tree.read, (tree.files.map fun file => file.2.length).foldl (· + ·) 1⟩

end FileTree
end EntitySchema
