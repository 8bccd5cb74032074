import EntitySchema.Compact.Decoding
import EntitySchema.Disk.FileTree
import EntitySchema.Snapshot.Reading
import EntitySchema.Source.Loading

/-! Opening database files. A file that begins as an encoding does is decoded, any
other is read as source, with includes resolved below a root directory. -/
namespace EntitySchema

/-- The path of a source file below a directory. Backslashes separate directories as
well. -/
def pathBelow (root path : String) : String :=
  FilePath.join root (String.ofList (path.toList.map fun c => if c = '\\' then '/' else c))

def Disk.directory (disk : Disk) (root : String) : FileSource where
  identity := normalizePath
  read path :=
    let full := pathBelow root path
    match disk.read full with
    | .ok bytes => .ok bytes
    | .error .notFound => .error (.fileNotFound full)
    | .error problem => .error (.io (full ++ ": " ++ problem.message))
  nesting := disk.nesting

def ioError (text : String) : Error := .ofCause (.io text)

/-- The database that reading source into an empty one gives. -/
def Source.loadNew (source : FileSource) (options : LoadOptions) (name : String) :
    Except Error Database :=
  match load source options name ∅ with
  | .ok () db => .ok db
  | .error error _ => .error error

/-- The directory that the includes of a source file resolve against. -/
def rootOf (input : String) (root : Option String) : String :=
  root.getD ((FilePath.parent? input).getD "")

/-- The name of a source file below its root directory, or its bare name if it is
not below it. -/
def nameBelow (root input : String) : String :=
  match FilePath.strip? input root with
  | some name => name
  | none => (FilePath.fileName? input).getD input

/-- Opens an encoded database or a source file. -/
def Disk.openDatabase (disk : Disk) (input : String) (root : Option String) :
    Except Error Database :=
  match disk.read input with
  | .error problem => .error (ioError (input ++ ": " ++ problem.message))
  | .ok bytes =>
    if Compact.magic.isPrefixOf bytes then Compact.decode bytes
    else
      let root := rootOf input root
      Source.loadNew (disk.directory root) .standard (nameBelow root input)

/-- The names that stand behind an include keyword, wherever in a source that is. -/
def includedNames : TokenStream → List String
  | .token keyword rest =>
    let names := includedNames rest
    if fold keyword.text = "@include" then
      match TokenStream.expect .string rest with
      | .ok target _ => target.text :: names
      | .error _ _ => names
    else names
  | .exhausted _ | .failed _ _ => []

/-- The paths of the files that opening a file with the given content may need next. -/
def wantedPaths (root : String) (bytes : List UInt8) : List String :=
  if Compact.magic.isPrefixOf bytes then []
  else
    (includedNames (.ofText (textOfUtf8Lossy bytes))).map fun name =>
      pathBelow root (LoadOptions.standard.fileName name)

/-- The files that have been looked at, with what came of it. A chain of includes
cannot be longer than that. -/
def Disk.ofResults (results : List (String × Except FileProblem (List UInt8))) : Disk :=
  ⟨fun path => (results.lookup path).getD (.error .notFound), results.length⟩

namespace Snapshot

/-- Why a snapshot could not be saved. -/
def saveError (path : String) (problem : FileProblem) : Error :=
  ioError ("failed to create file '" ++ path ++ "': " ++ problem.message)

def save (tree : FileTree) (path : String) (db : Database) : Except Error FileTree :=
  (tree.write path (write db)).mapError (saveError path)

/-- Loads a snapshot. A directory can be opened, but not read. -/
def load (disk : Disk) (path : String) : Except Error Database :=
  match disk.read path with
  | .ok bytes => read bytes
  | .error .isDirectory =>
    .error (ioError ("failed to read file '" ++ path ++ "': " ++ FileProblem.isDirectory.message))
  | .error problem =>
    .error (ioError ("failed to open file '" ++ path ++ "': " ++ problem.message))

end Snapshot
end EntitySchema
