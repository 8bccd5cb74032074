import EntitySchema.Token
import EntitySchema.ValueType

/-! Everything that can go wrong, by cause. Each kind of problem has one function
that words it; an error adds where in a source file it arose, if that is known. -/
namespace EntitySchema

def quote (text : String) : String := "\"" ++ text ++ "\""

/-- Source text or tokens that the language does not allow. -/
inductive SyntaxProblem where
  | unexpectedCharacter (c : Char)
  | nestedParenthesis
  | unterminatedArguments
  | unterminatedString
  | expected (wanted : TokenKind) (found : Token)
  | unexpected (token : Token)
  | argumentsWithoutHelper (text : String)
  | headerNeverEnded
  | twoColons
  | plusWithoutString
  | bodyNeverEnded (classname : String)
  | listNeverEnded (key : String)
  | missingLabel (value key : String)
  | tooManyStrings (text : String)
  | other (text : String)
  deriving DecidableEq, Repr

def SyntaxProblem.message : SyntaxProblem → String
  | .unexpectedCharacter c => "unexpected character '" ++ c.toString ++ "'"
  | .nestedParenthesis => "nested '(' in parenthesised arguments"
  | .unterminatedArguments => "unterminated parenthesised arguments"
  | .unterminatedString => "unterminated string literal"
  | .expected wanted found => "expected " ++ wanted.name ++ ", found " ++ found.description
  | .unexpected token => "unexpected " ++ token.description
  | .argumentsWithoutHelper text => "arguments without helper type (" ++ text ++ ")"
  | .headerNeverEnded => "entity header never ended"
  | .twoColons => "two colons in entity description"
  | .plusWithoutString => "'+' without a string before it"
  | .bodyNeverEnded classname => "body of " ++ quote classname ++ " never ended"
  | .listNeverEnded key => "value list of " ++ quote key ++ " never ended"
  | .missingLabel value key =>
    "expected a label for list entry " ++ quote value ++ " of " ++ quote key
  | .tooManyStrings text => "too many strings (" ++ quote text ++ ")"
  | .other text => text

/-- Well-formed definitions that make no sense. -/
inductive SemanticProblem where
  | unknownValueType (keyword : String)
  | unknownHelper (keyword : String)
  | unknownCategory (keyword : String)
  | unknownBase (base classname : String)
  | tooManyAttributes (name : String) (count : Nat)
  | tooManyIoAttributes (name : String)
  | listTypeForIo (type : ValueType)
  | missingValueList (name : String) (type : ValueType)
  | unexpectedValueList (name : String) (type : ValueType)
  | flagNotInteger (value classname : String)
  | flagNotPowerOfTwo (value classname : String)
  | flagOutOfRange (value classname : String)
  | danglingBase (id : UInt32) (classname : String)
  | badListEntry (key value : String) (count : Nat)
  | badKeyword (text : String)
  | invalidMapSize (text : String)
  deriving DecidableEq, Repr

def listTypeForIoMessage (type : ValueType) : String :=
  quote type.keyword ++ " value type is not valid for an input or output"

def SemanticProblem.message : SemanticProblem → String
  | .unknownValueType keyword => "unknown keyvalue type " ++ quote keyword
  | .unknownHelper keyword => "unknown helper type " ++ quote keyword
  | .unknownCategory keyword => "invalid entity type " ++ quote keyword
  | .unknownBase base classname => "unknown base (" ++ base ++ ") for " ++ classname
  | .tooManyAttributes name count =>
    "too many attributes for keyvalue " ++ quote name ++ " (" ++ toString count ++ ")"
  | .tooManyIoAttributes name => "too many values for IO definition " ++ quote name
  | .listTypeForIo type => listTypeForIoMessage type
  | .missingValueList name type =>
    "no list for " ++ quote type.keyword ++ " keyvalue " ++ quote name
  | .unexpectedValueList name type =>
    quote type.keyword ++ " keyvalue " ++ quote name ++ " can't have a list"
  | .flagNotInteger value classname =>
    "spawnflags must be integer values, not " ++ quote value ++ " (in " ++ classname ++ ")"
  | .flagNotPowerOfTwo value classname =>
    "spawnflags must be powers of two, not " ++ value ++ " (in " ++ classname ++ ")"
  | .flagOutOfRange value classname =>
    "spawnflags value " ++ value ++ " is above the highest supported bit (in " ++ classname ++ ")"
  | .danglingBase id classname =>
    "base link " ++ toString id.toNat ++ " of " ++ classname ++ " points at no class"
  | .badListEntry key value count =>
    "wrong number of values for list entry " ++ quote value ++ " of " ++ quote key ++
      " (" ++ toString count ++ ")"
  | .badKeyword text => "bad keyword " ++ quote text
  | .invalidMapSize text => "invalid @mapsize: (" ++ text ++ ")"

/-- What the compact format counts in fields of fixed width. -/
inductive Counted where
  | base | keyvalue | input | output | flag | choice | entity
  deriving DecidableEq, Repr

def Counted.name : Counted → String
  | .base => "base"
  | .keyvalue => "keyvalue"
  | .input => "input"
  | .output => "output"
  | .flag => "flag"
  | .choice => "choice"
  | .entity => "entity"

/-- Data that does not fit the compact format. -/
inductive CapacityProblem where
  | dictionaryOverflow (limit : Nat)
  | stringTooLong (length limit : Nat)
  | tooManyItems (what : Counted) (count limit : Nat) (classname : String)
  deriving DecidableEq, Repr

def CapacityProblem.message : CapacityProblem → String
  | .dictionaryOverflow limit =>
    "too many items in string dictionary (limit " ++ toString limit ++ ")"
  | .stringTooLong length limit =>
    "string of " ++ toString length ++ " bytes exceeds the " ++ toString limit ++ " byte limit"
  | .tooManyItems what count limit classname =>
    what.name ++ " count " ++ toString count ++ " exceeds limit " ++ toString limit ++
      " (in " ++ classname ++ ")"

/-- Bytes that are no compact encoding. -/
inductive FormatProblem where
  | badMagic
  | unknownVersion (version : UInt8)
  | truncated (offset needed : Nat)
  | invalidUtf8 (entry : Nat)
  | invalidValueType (index : UInt8)
  | invalidFlagPower (power : UInt8)
  | invalidCategory (index : UInt8)
  | invalidStringId (id : UInt16) (length : Nat)
  | listTypeForIo (type : ValueType)
  deriving DecidableEq, Repr

def FormatProblem.message : FormatProblem → String
  | .badMagic => "not an FGD file"
  | .unknownVersion version => "unknown format version " ++ quote (toString version.toNat)
  | .truncated offset needed =>
    "unexpected end of data at offset " ++ toString offset ++
      " (needed " ++ toString needed ++ " bytes)"
  | .invalidUtf8 entry => "invalid UTF-8 in string dictionary entry " ++ toString entry
  | .invalidValueType index => "invalid value type index " ++ toString index.toNat
  | .invalidFlagPower power => "invalid flag exponent " ++ toString power.toNat
  | .invalidCategory index => "invalid entity category index " ++ toString index.toNat
  | .invalidStringId id length =>
    "string id " ++ toString id.toNat ++ " out of range (dictionary has " ++
      toString length ++ " entries)"
  | .listTypeForIo type => listTypeForIoMessage type

inductive Cause where
  | malformed (problem : SyntaxProblem)
  | semantic (problem : SemanticProblem)
  | fileNotFound (path : String)
  | io (text : String)
  | capacity (problem : CapacityProblem)
  | format (problem : FormatProblem)
  | snapshot (text : String)
  deriving DecidableEq, Repr

def Cause.message : Cause → String
  | .malformed problem => "syntax error: " ++ problem.message
  | .semantic problem => problem.message
  | .fileNotFound path => "file not found: " ++ path
  | .io text => "i/o error: " ++ text
  | .capacity problem => "capacity exceeded: " ++ problem.message
  | .format problem => "invalid binary data: " ++ problem.message
  | .snapshot text => "serialization error: " ++ text

def Cause.isMalformed : Cause → Bool
  | .malformed _ => true
  | _ => false

def Cause.isSemantic : Cause → Bool
  | .semantic _ => true
  | _ => false

/-- Where an error arose, as far as it is known. -/
structure Context where
  source : Option String
  line : Option Nat
  column : Option Nat
  deriving DecidableEq, Repr

/-- A column alone says nothing. -/
def Context.description (context : Context) : String :=
  match context.source, context.line, context.column with
  | some source, some line, some column =>
    "at " ++ source ++ ":" ++ toString line ++ ":" ++ toString column
  | some source, some line, none => "at " ++ source ++ ":" ++ toString line
  | some source, none, _ => "in " ++ source
  | none, some line, some column => "at line " ++ toString line ++ ", column " ++ toString column
  | none, some line, none => "at line " ++ toString line
  | none, none, _ => ""

structure Error where
  cause : Cause
  context : Option Context
  deriving DecidableEq, Repr

namespace Error

def ofCause (cause : Cause) : Error := ⟨cause, none⟩

def suffix (context : Context) : String :=
  if context.source.isSome || context.line.isSome then " (" ++ context.description ++ ")" else ""

def message (error : Error) : String :=
  error.cause.message ++ (error.context.map suffix).getD ""

/-- Adds a context unless the error already has one. -/
def locate (error : Error) (context : Context) : Error :=
  if error.context.isSome then error else { error with context := some context }

end Error

/-- A problem found while reading one source text, with the line and column where
it was noticed. -/
structure Fault where
  cause : Cause
  line : Nat
  column : Nat
  deriving DecidableEq, Repr

/-- The fault as an error in a source of the given name. -/
def Fault.within (fault : Fault) (source : Option String) : Error :=
  ⟨fault.cause, some ⟨source, some fault.line, some fault.column⟩⟩

namespace Token

/-- A problem noticed at a token. -/
def malformed (token : Token) (problem : SyntaxProblem) : Fault :=
  ⟨.malformed problem, token.span.line, token.span.column⟩

def semantic (token : Token) (problem : SemanticProblem) : Fault :=
  ⟨.semantic problem, token.span.line, token.span.column⟩

def unexpected (token : Token) : Fault := token.malformed (.unexpected token)

end Token
end EntitySchema
