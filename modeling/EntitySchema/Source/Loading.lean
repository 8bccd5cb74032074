import EntitySchema.Database
import EntitySchema.Grammar.Body
import EntitySchema.Source.Directive
import EntitySchema.Source.FileSource

/-! Reading source files into a database. Includes are followed where they stand,
each file being read once. A failure keeps what was read before it, and is located
in the file that caused it. -/
namespace EntitySchema

structure LoadOptions where
  /-- Appended to the names of files that lack it. -/
  extension : String
  /-- Whether bases are linked once the root file has been read. -/
  linksBases : Bool

def LoadOptions.standard : LoadOptions := ⟨".fgd", true⟩

/-- The file that a name denotes: the extension is compared by its folded form. -/
def LoadOptions.fileName (options : LoadOptions) (name : String) : String :=
  if (fold options.extension).toList.isSuffixOf (fold name).toList then name
  else name ++ options.extension

/-- Computations that read into a database and keep it when they fail. -/
abbrev Loading := EStateM Error Database

namespace Source

/-- Where a file that cannot be included is reported: at the token that names it. -/
def contextOf (name : String) (target : Token) : Context :=
  ⟨some name, some target.span.line, some target.span.column⟩

/-- Reads the directives of the source text `name`, given how to include a file. -/
def loadStream (options : LoadOptions) (includeFile : String → Loading Unit) (name : String)
    (stream : TokenStream) : Loading Unit := fun db =>
  match stream with
  | .token token rest =>
    match token.kind with
    | .newline => loadStream options includeFile name rest db
    | .endOfInput => .ok () db
    | .string =>
      match _ : readDirective token rest with
      | .ok (.includeFile target) after =>
        match includeFile (options.fileName target.text) db with
        | .ok () db => loadStream options includeFile name after db
        | .error error db => .error (error.locate (contextOf name target)) db
      | .ok (.mapSize low high) after =>
        loadStream options includeFile name after (db.setMapSize low high)
      | .ok (.classHead head) after =>
        match _ : Grammar.readBody head after with
        | (entity, .ok () behind) =>
          loadStream options includeFile name behind (db.define entity)
        | (entity, .error fault _) => .error (fault.within name) (db.define entity)
      | .error fault _ => .error (fault.within name) db
    | _ => .error (token.unexpected.within name) db
  | .exhausted _ => .ok () db
  | .failed fault _ => .error (fault.within name) db
termination_by stream.length
decreasing_by
  · simp [TokenStream.length]
  · exact Nat.lt_succ_of_le (consuming_readDirective _ _ _ _ ‹_›)
  · exact Nat.lt_succ_of_le (consuming_readDirective _ _ _ _ ‹_›)
  · refine Nat.lt_succ_of_le (Nat.le_trans (@Grammar.length_readBody_le head _ _ ?_)
      (consuming_readDirective token _ _ _ ‹_›))
    rw [‹Grammar.readBody head after = _›]

/-- Reads a file unless it has been read, with includes nested at most `depth` deep. -/
def includeFile (source : FileSource) (options : LoadOptions) :
    (depth : Nat) → (path : String) → Loading Unit
  | depth, path => fun db =>
    if db.hasFile (source.identity path) then .ok () db
    else
      match source.read path with
      | .error cause => .error (.ofCause cause) db
      | .ok bytes =>
        match depth with
        | 0 => .error (.ofCause (.io (path ++ ": includes nested too deeply"))) db
        | depth + 1 =>
          loadStream options (includeFile source options depth) path
            (.ofText (textOfUtf8Lossy bytes)) (db.beginFile (source.identity path))

/-- Reads source text as though it were the file `name`, without linking bases. -/
def loadText (source : FileSource) (options : LoadOptions) (name text : String) : Loading Unit :=
  loadStream options (includeFile source options source.nesting) name (.ofText text)

/-- Links all bases of the database that has been read. -/
def linkLoaded : Loading Unit := fun db =>
  match db.linkBases with
  | (db, none) => .ok () db
  | (db, some problem) => .error (.ofCause (.semantic problem)) db

/-- Reads a root file with everything it includes. -/
def load (source : FileSource) (options : LoadOptions) (name : String) : Loading Unit := do
  includeFile source options source.nesting (options.fileName name)
  if options.linksBases then linkLoaded

/-- The database of a single text that includes no files. -/
def parse (text : String) : Except Error Database :=
  match (do loadText MemoryFiles.empty.source .standard "<string>" text; linkLoaded :
      Loading Unit) ∅ with
  | .ok () db => .ok db
  | .error error _ => .error error

end Source
end EntitySchema
