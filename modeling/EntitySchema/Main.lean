import EntitySchema.CommandLine.Running

/-! The program on a real file system. It reads all files that a command can need,
makes its plan from them, and carries the plan out. -/
namespace EntitySchema.CommandLine

/-- The problem with a number of the system, which may come negated. -/
def systemProblem (code : UInt32) (details : String) : FileProblem :=
  match min code (0 - code) with
  | 2 => .notFound
  | 20 => .notDirectory
  | 21 => .isDirectory
  | 36 => .nameTooLong
  | code => .other (details ++ " (os error " ++ toString code.toNat ++ ")")

def fileProblem : IO.Error → FileProblem
  | .noFileOrDirectory _ code details | .interrupted _ code details
  | .alreadyExists _ code details | .invalidArgument _ code details
  | .permissionDenied _ code details | .resourceExhausted _ code details
  | .inappropriateType _ code details | .noSuchThing _ code details
  | .otherError code details | .resourceBusy code details | .resourceVanished code details
  | .unsupportedOperation code details | .hardwareFault code details
  | .unsatisfiedConstraints code details | .illegalOperation code details
  | .protocolError code details | .timeExpired code details => systemProblem code details
  | .unexpectedEof => .other "unexpected end of file"
  | .userError details => .other details

def readFile (path : String) : BaseIO (Except FileProblem (List UInt8)) := do
  match ← (IO.FS.readBinFile path).toBaseIO with
  | .ok bytes => return .ok bytes.toList
  | .error error => return .error (fileProblem error)

/-- Looks at files and at those they want in turn. -/
partial def gather (root : String) (results : List (String × Except FileProblem (List UInt8))) :
    List String → BaseIO (List (String × Except FileProblem (List UInt8)))
  | [] => return results
  | path :: rest => do
    if (results.lookup path).isSome then gather root results rest
    else
      let result ← readFile path
      let wanted :=
        match result with
        | .ok bytes => wantedPaths root bytes
        | .error _ => []
      gather root ((path, result) :: results) (wanted ++ rest)

/-- The files that running with the given arguments can need. -/
def gatherFor (arguments : List String) : BaseIO Disk := do
  match configure arguments with
  | .ok { command := some command, root, .. } =>
    match command.operands with
    | input :: _ =>
      let root := rootOf input root
      let source := LoadOptions.standard.fileName (nameBelow root input)
      let results ← gather root [] [input, pathBelow root source]
      return .ofResults results
    | [] => return .ofResults []
  | _ => return .ofResults []

/-- Answers lines until the input or the session ends. -/
partial def converse (db : Database) (terminal : Bool) : IO Unit := do
  if terminal then
    IO.print "fgd> "
    (← IO.getStdout).flush
  let input ← (← IO.getStdin).getLine
  match inputLines input with
  | [] => return
  | line :: _ =>
    if (Text.trim line.toList).isEmpty then converse db terminal
    else
      match Inspector.eval db line with
      | .text text =>
        IO.println text
        converse db terminal
      | .quit => return

def complain (message : String) : IO UInt32 := do
  IO.eprint (complaintText message)
  return 1

def Plan.execute : Plan → IO UInt32
  | .finish output => do
    IO.print output
    return 0
  | .fail output message => do
    IO.print output
    complain message
  | .save path bytes report complaint => do
    match ← (IO.FS.writeBinFile path bytes.toByteArray).toBaseIO with
    | .ok () =>
      IO.print report
      return 0
    | .error error => complain (complaint (fileProblem error))
  | .browse db => do
    IO.println (Inspector.greeting db)
    converse db (← (← IO.getStdin).isTty)
    return 0

end EntitySchema.CommandLine

open EntitySchema.CommandLine in
def main (arguments : List String) : IO UInt32 := do
  (plan (← gatherFor arguments) arguments).execute
