import EntitySchema.Error
import EntitySchema.OrderedMap
import EntitySchema.Text.Lowercase
import EntitySchema.Text.Utf8

/-! Where source files come from. A file is identified by its normalized path, so
that different spellings of one path count as one file; what a path reads as is up
to the source. -/
namespace EntitySchema

/-- Paths are folded and written with single forward slashes, without `.` segments. -/
def normalizePath (path : String) : String :=
  let slashed := path.toList.map fun c => if c = '\\' then '/' else c
  let segments := ((Text.lowercase slashed).splitOn '/').filter fun segment =>
    !segment.isEmpty && segment != ['.']
  String.ofList (List.intercalate ['/'] segments)

structure FileSource where
  /-- The key under which a file is known once it has been read. -/
  identity : String → String
  read : String → Except Cause (List UInt8)
  /-- A bound on how deeply distinct files of this source can include each other. -/
  nesting : Nat

/-- Files held in memory under their normalized paths. -/
structure MemoryFiles where
  contents : OrderedMap (List UInt8)

namespace MemoryFiles

def empty : MemoryFiles := ⟨∅⟩

def add (files : MemoryFiles) (path : String) (bytes : List UInt8) : MemoryFiles :=
  ⟨files.contents.insert (normalizePath path) bytes⟩

def ofList (files : List (String × List UInt8)) : MemoryFiles :=
  files.foldl (fun files file => files.add file.1 file.2) empty

def size (files : MemoryFiles) : Nat := files.contents.size

def read (files : MemoryFiles) (path : String) : Except Cause (List UInt8) :=
  match files.contents.get? (normalizePath path) with
  | some bytes => .ok bytes
  | none => .error (.fileNotFound path)

/-- A chain of includes visits each file at most once. -/
def source (files : MemoryFiles) : FileSource :=
  ⟨normalizePath, files.read, files.size⟩

end MemoryFiles
end EntitySchema
