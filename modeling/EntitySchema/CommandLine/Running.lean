import EntitySchema.CommandLine.Arguments
import EntitySchema.Disk.Opening
import EntitySchema.Inspector

/-! What the program does for a command: it reads, and then prints, complains, writes
one file or browses a database. -/
namespace EntitySchema

/-- The number of classes, in all and by category, and the map bounds. -/
def Database.summary (db : Database) : String :=
  let counts := Category.all.filterMap fun category =>
    match db.classes.values.countP (·.category == category) with
    | 0 => none
    | count => some (toString count ++ " " ++ category.keyword)
  toString db.size ++ " classes" ++
    (if counts.isEmpty then "" else " (" ++ ", ".intercalate counts ++ ")") ++
    "\nmap size: " ++ toString db.mapMin.toInt ++ " to " ++ toString db.mapMax.toInt

namespace CommandLine

def programName : String := "fgdkit"

def versionText : String := programName ++ " 0.1.0\n"

def bold (text : String) : String := "\x1b[1m" ++ text ++ "\x1b[0m"

def helpText : String :=
  bold programName ++ " - FGD entity definition toolkit\n\n" ++
  bold "USAGE:" ++ "\n" ++
  "    fgdkit [OPTIONS] <COMMAND> [ARGS...]\n\n" ++
  bold "COMMANDS:" ++ "\n" ++
  "    check <file.fgd>                  Parse, resolve bases and print a summary\n" ++
  "    encode <file.fgd> <out.bin>       Write the compact binary form\n" ++
  "    decode <in.bin>                   Read a binary file and print a summary\n" ++
  "    snapshot <file.fgd> <out.msgpack> Write a lossless MessagePack snapshot\n" ++
  "    inspect <file.fgd|file.bin>       Browse classes interactively\n\n" ++
  bold "OPTIONS:" ++ "\n" ++
  "    -h, --help         Print help information\n" ++
  "    -V, --version      Print version information\n" ++
  "    -v, --verbose      Log debug events (RUST_LOG overrides)\n" ++
  "    --root <dir>       Directory that @include paths resolve against\n\n" ++
  bold "EXAMPLES:" ++ "\n" ++
  "    fgdkit check halflife2.fgd\n" ++
  "    fgdkit --root fgds encode fgds/portal2.fgd portal2.bin\n" ++
  "    fgdkit inspect portal2.bin\n\n" ++
  bold "INSPECTOR COMMANDS:" ++ "\n" ++
  "    list [category]      List classes\n" ++
  "    show <class>         Summary of a class\n" ++
  "    kv <class> [key]     Keyvalues, or one keyvalue in detail\n" ++
  "    io <class>           Inputs and outputs\n" ++
  "    bases <class>        Inheritance tree\n" ++
  "    Ctrl+D               Exit\n"

/-- Which events the program logs. -/
def logFilter (verbose : Bool) : String :=
  if verbose then "fgdkit=debug,info" else "warn"

/-- What is left to do once everything has been read. -/
inductive Plan where
  | finish (output : String)
  | fail (output message : String)
  /-- Writes a file; then reports, or complains if that failed. -/
  | save (path : String) (bytes : List UInt8) (report : String) (complaint : FileProblem → String)
  | browse (db : Database)

def Plan.ofResult {α : Type} (result : Except Error α) (next : α → Plan) : Plan :=
  match result with
  | .ok value => next value
  | .error error => .fail "" error.message

def planCommand (disk : Disk) (root : Option String) : Command → Plan
  | .check input =>
    .ofResult (disk.openDatabase input root) fun db => .finish (db.summary ++ "\n")
  | .encode input output =>
    .ofResult (disk.openDatabase input root) fun db =>
      .ofResult (Compact.encode db) fun bytes =>
        .save output bytes
          (toString db.size ++ " classes, " ++ toString bytes.length ++ " bytes\n")
          fun problem => "failed to write '" ++ output ++ "': " ++ problem.message
  | .decode input =>
    match disk.read input with
    | .error problem => .fail "" ("failed to read '" ++ input ++ "': " ++ problem.message)
    | .ok bytes => .ofResult (Compact.decode bytes) fun db => .finish (db.summary ++ "\n")
  | .snapshot input output =>
    .ofResult (disk.openDatabase input root) fun db =>
      .save output (Snapshot.write db)
        (toString db.size ++ " classes saved to " ++ output ++ "\n")
        fun problem => (Snapshot.saveError output problem).message
  | .inspect input => .ofResult (disk.openDatabase input root) .browse

/-- The plan for the arguments behind the program name. -/
def plan (disk : Disk) (arguments : List String) : Plan :=
  match configure arguments with
  | .error problem => .fail "" problem.message
  | .ok configuration =>
    if configuration.help then .finish helpText
    else if configuration.version then .finish versionText
    else
      match configuration.command with
      | none => .fail helpText "no command given"
      | some command => planCommand disk configuration.root command

/-- How a failure is shown. -/
def complaintText (message : String) : String := "\x1b[31mError: " ++ message ++ "\x1b[0m\n"

/-- The lines of an input text, which end at a line feed with or without a carriage
return before it. -/
def inputLines (input : String) : List String :=
  match (input.toList.splitOn '\n').reverse with
  | [] => []
  | last :: ended =>
    let ended := ended.reverse.map fun line =>
      if line.getLast? = some '\r' then line.dropLast else line
    (if last.isEmpty then ended else ended ++ [last]).map String.ofList

/-- What running the program leaves behind. -/
structure Outcome where
  succeeded : Bool
  output : String
  complaint : Option String
  tree : FileTree

/-- Carries out a plan in a tree of files. -/
def Plan.run (tree : FileTree) (input : String) : Plan → Outcome
  | .finish output => ⟨true, output, none, tree⟩
  | .fail output message => ⟨false, output, some (complaintText message), tree⟩
  | .save path bytes report complaint =>
    match tree.write path bytes with
    | .ok tree => ⟨true, report, none, tree⟩
    | .error problem => ⟨false, "", some (complaintText (complaint problem)), tree⟩
  | .browse db => ⟨true, Inspector.transcript db (inputLines input), none, tree⟩

/-- Runs the program in a tree of files. -/
def run (tree : FileTree) (arguments : List String) (input : String) : Outcome :=
  (plan tree.disk arguments).run tree input

end CommandLine
end EntitySchema
