/-! The arguments of the command line: options in any place, and a command with its
operands in order. -/
namespace EntitySchema.CommandLine

inductive Command where
  | check (input : String)
  | encode (input output : String)
  | decode (input : String)
  | snapshot (input output : String)
  | inspect (input : String)
  deriving DecidableEq, Repr

namespace Command

def name : Command → String
  | check _ => "check"
  | encode _ _ => "encode"
  | decode _ => "decode"
  | snapshot _ _ => "snapshot"
  | inspect _ => "inspect"

def operands : Command → List String
  | check input | decode input | inspect input => [input]
  | encode input output | snapshot input output => [input, output]

end Command

structure Configuration where
  command : Option Command
  verbose : Bool
  root : Option String
  help : Bool
  version : Bool
  deriving DecidableEq, Repr

inductive ArgumentProblem where
  | unknownOption (text : String)
  | unknownCommand (text : String)
  | missingArgument (subject : String) (what : String)
  | unexpectedArgument (text : String)
  deriving DecidableEq, Repr

def ArgumentProblem.message : ArgumentProblem → String
  | .unknownOption text => "unknown option: " ++ text
  | .unknownCommand text => "unknown command: " ++ text
  | .missingArgument subject what => subject ++ " requires " ++ what
  | .unexpectedArgument text => "unexpected argument: " ++ text

/-- A dash alone is an operand. -/
def isOption (argument : String) : Bool :=
  argument.toList.head? == some '-' && argument.toList != ['-']

/-- Sets the options among the arguments, and collects the operands in reverse. -/
def scan (configuration : Configuration) (operands : List String) :
    List String → Except ArgumentProblem (Configuration × List String)
  | [] => .ok (configuration, operands.reverse)
  | argument :: rest =>
    match argument with
    | "-h" | "--help" => scan { configuration with help := true } operands rest
    | "-V" | "--version" => scan { configuration with version := true } operands rest
    | "-v" | "--verbose" => scan { configuration with verbose := true } operands rest
    | "--root" =>
      match rest with
      | directory :: rest => scan { configuration with root := some directory } operands rest
      | [] => .error (.missingArgument "--root" "a directory")
    | operand =>
      if isOption operand then .error (.unknownOption operand)
      else scan configuration (operand :: operands) rest

/-- The command that a name and the operands after it make up. -/
def command? (name : String) (operands : List String) : Except ArgumentProblem Command :=
  let one (make : String → Command) : Except ArgumentProblem Command :=
    match operands with
    | [input] => .ok (make input)
    | [] => .error (.missingArgument name "an input file")
    | _ :: extra :: _ => .error (.unexpectedArgument extra)
  let two (make : String → String → Command) : Except ArgumentProblem Command :=
    match operands with
    | [input, output] => .ok (make input output)
    | [] => .error (.missingArgument name "an input file")
    | [_] => .error (.missingArgument name "an output file")
    | _ :: _ :: extra :: _ => .error (.unexpectedArgument extra)
  match name with
  | "check" => one .check
  | "encode" => two .encode
  | "decode" => one .decode
  | "snapshot" => two .snapshot
  | "inspect" => one .inspect
  | other => .error (.unknownCommand other)

/-- Reads the arguments behind the program name. A request for help or for the version
makes operands irrelevant. -/
def configure (arguments : List String) : Except ArgumentProblem Configuration := do
  let (configuration, operands) ← scan ⟨none, false, none, false, false⟩ [] arguments
  if configuration.help || configuration.version then return configuration
  else
    match operands with
    | [] => return configuration
    | name :: operands =>
      let command ← command? name operands
      return { configuration with command := some command }

end EntitySchema.CommandLine
