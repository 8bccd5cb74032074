import EntitySchema.MergedView

/-! Browsing a database by commands of one line each. Every command is answered with
a text, except for the one that ends the session. -/
namespace EntitySchema

inductive Reply where
  | text (text : String)
  | quit
  deriving DecidableEq, Repr

namespace Inspector

def commands : List String := ["list", "show", "kv", "io", "bases", "help", "quit"]

def help : String :=
  "commands:\n" ++
  "  list [category]    list classes, optionally of one category\n" ++
  "  show <class>       summary of a class\n" ++
  "  kv <class> [key]   keyvalues of a class, or one keyvalue in detail\n" ++
  "  io <class>         inputs and outputs of a class\n" ++
  "  bases <class>      inheritance tree of a class\n" ++
  "  help               this text\n" ++
  "  quit               leave the inspector"

/-- The words to offer for completion: commands and classnames. -/
def keywords (db : Database) : List String :=
  commands ++ db.classes.values.map (·.name)

def line (text : String) : String := text ++ "\n"

def lines (texts : List String) : String := String.join (texts.map line)

def counted (count : Nat) (what : String) : String := toString count ++ " " ++ what

def commaSeparated (texts : List String) : String := ", ".intercalate texts

/-- A text filled up with blanks to the given number of characters. -/
def padded (width : Nat) (text : String) : String :=
  text ++ String.ofList (List.replicate (width - text.length) ' ')

/-- Categories may be named with a leading `@` and without the word `class`. -/
def category? (name : String) : Option Category :=
  let name := String.ofList (name.toList.dropWhile (· == '@'))
  (Category.ofKeyword? name).or (Category.ofKeyword? (name ++ "class"))

def listing (classes : List EntityClass) : String :=
  let classLine (entity : EntityClass) : String :=
    "  " ++ padded 14 entity.category.keyword ++ " " ++ entity.name
  lines (classes.map classLine) ++ counted classes.length "classes"

def list (db : Database) (category : Option String) : String :=
  match category with
  | none => listing db.classes.values
  | some name =>
    match category? name with
    | some category => listing (db.classes.values.filter (·.category == category))
    | none => "unknown category " ++ quote name

def overview (db : Database) (id : ClassId) (entity : EntityClass) : String :=
  let bases := db.baseNames entity
  lines (
    [entity.name ++ " (" ++ entity.category.keyword ++ ")"] ++
    (if bases.isEmpty then [] else ["  bases: " ++ commaSeparated bases]) ++
    entity.helpers.map (fun helper =>
      "  helper: " ++ helper.kind.keyword ++ "(" ++ commaSeparated helper.arguments ++ ")") ++
    (if entity.description.isEmpty then [] else ["  " ++ entity.description])) ++
  "  " ++ counted (db.keyValuesOf id).length "keyvalues" ++ ", " ++
    counted (db.inputsOf id).length "inputs" ++ ", " ++
    counted (db.outputsOf id).length "outputs"

def keyValueLine (keyValue : KeyValue) : String :=
  "  " ++ keyValue.name ++ "(" ++ keyValue.type.keyword ++ ")" ++
    (if keyValue.readonly then " readonly" else "") ++ " : " ++ quote keyValue.displayName ++
    (if keyValue.initial.isEmpty then "" else " : " ++ keyValue.initial)

def keyValues (db : Database) (id : ClassId) : String :=
  let view := db.keyValuesOf id
  lines (view.members.map keyValueLine) ++ counted view.length "keyvalues"

def flagLine (entry : FlagEntry) : String :=
  "  [" ++ toString entry.bit.value ++ "] " ++ entry.label ++
    (if entry.initial then " (on)" else " (off)")

def choiceLine (choice : Choice) : String := "  " ++ choice.value ++ " = " ++ choice.label

def valueLines : Option ValueList → List String
  | some (.flags entries) => entries.map flagLine
  | some (.choices entries) => entries.map choiceLine
  | none => []

/-- A keyvalue in detail, without blanks at the end. -/
def keyValueDetail (keyValue : KeyValue) : String :=
  trimmedEnd (lines (
    [keyValue.name ++ " (" ++ keyValue.type.keyword ++ ")",
      "  display: " ++ keyValue.displayName] ++
    (if keyValue.initial.isEmpty then [] else ["  default: " ++ keyValue.initial]) ++
    (if keyValue.readonly then ["  readonly"] else []) ++
    (if keyValue.description.isEmpty then [] else ["  " ++ keyValue.description]) ++
    valueLines keyValue.values))

def keyValue (db : Database) (id : ClassId) (entity : EntityClass) (key : String) : String :=
  match (db.keyValuesOf id).get? key with
  | some keyValue => keyValueDetail keyValue
  | none => entity.name ++ " has no keyvalue " ++ quote key

def signalLine (mark : String) (signal : Signal) : String :=
  mark ++ signal.name ++ "(" ++ signal.type.keyword ++ ")"

def signals (db : Database) (id : ClassId) : String :=
  let inputs := db.inputsOf id
  let outputs := db.outputsOf id
  lines (inputs.members.map (signalLine "  input  ")) ++
    lines (outputs.members.map (signalLine "  output ")) ++
    counted inputs.length "inputs" ++ ", " ++ counted outputs.length "outputs"

/-- One line of an inheritance tree: a class, how deep it stands, and whether it has
stood in the tree before. -/
structure Branch where
  depth : Nat
  id : ClassId
  repeated : Bool
  deriving DecidableEq, Repr

/-- Continues a tree, of which some lines have been found, last one first, and some
classes are still to be entered at their depths. The bases of a class are shown
under its first line only. -/
def treeFrom (db : Database) (seen : List ClassId) (found : List Branch) :
    List (Nat × ClassId) → List Branch
  | [] => found.reverse
  | (depth, id) :: rest =>
    match _ : db.classAt? id with
    | none => treeFrom db seen found rest
    | some entity =>
      if _ : id ∉ seen then
        treeFrom db (id :: seen) (⟨depth, id, false⟩ :: found)
          ((db.basesOf entity).map (fun base => (depth + 1, base)) ++ rest)
      else treeFrom db seen (⟨depth, id, true⟩ :: found) rest
termination_by waiting => ((db.unseen seen).length, waiting.length)
decreasing_by
  · exact Prod.Lex.right _ (by simp)
  · exact Prod.Lex.left _ _ (Database.length_unseen_cons_lt ‹_› ‹_›)
  · exact Prod.Lex.right _ (by simp)

/-- The inheritance tree of a class. -/
def tree (db : Database) (id : ClassId) : List Branch := treeFrom db [] [] [(0, id)]

def branchLine (db : Database) (branch : Branch) : String :=
  String.ofList (List.replicate (2 * branch.depth) ' ') ++
    ((db.classAt? branch.id).map (·.name)).getD "" ++ (if branch.repeated then " (cycle)" else "")

def bases (db : Database) (id : ClassId) : String :=
  trimmedEnd (lines ((tree db id).map (branchLine db)))

/-- Answers a command about the class that its first argument names. -/
def aboutClass (db : Database) (arguments : List String)
    (answer : ClassId → EntityClass → String) : String :=
  match arguments with
  | [] => "expected a classname"
  | name :: _ =>
    match db.idOf? name, db.find? name with
    | some id, some entity => answer id entity
    | _, _ => "no class " ++ quote name

/-- Answers one command line. -/
def eval (db : Database) (input : String) : Reply :=
  match (Text.words input.toList).map String.ofList with
  | [] => .text ""
  | command :: arguments =>
    match fold command with
    | "quit" | "exit" => .quit
    | "help" | "?" => .text help
    | "list" => .text (list db arguments.head?)
    | "show" => .text (aboutClass db arguments (overview db))
    | "kv" =>
      .text (aboutClass db arguments fun id entity =>
        match arguments[1]? with
        | some key => keyValue db id entity key
        | none => keyValues db id)
    | "io" => .text (aboutClass db arguments fun id _ => signals db id)
    | "bases" => .text (aboutClass db arguments fun id _ => bases db id)
    | other => .text ("unknown command '" ++ other ++ "' (try 'help')")

/-- What a session greets with. -/
def greeting (db : Database) : String :=
  counted db.size "classes loaded. Type 'help' for commands, Ctrl+D to exit."

/-- The output of a session over the given input lines; blank ones are passed over. -/
def transcript (db : Database) (input : List String) : String :=
  lines (greeting db :: replies input)
where
  replies : List String → List String
    | [] => []
    | command :: rest =>
      if (Text.trim command.toList).isEmpty then replies rest
      else
        match eval db command with
        | .text text => text :: replies rest
        | .quit => []

end Inspector
end EntitySchema
