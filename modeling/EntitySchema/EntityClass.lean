import EntitySchema.Category
import EntitySchema.Error
import EntitySchema.HelperKind
import EntitySchema.KeyValue
import EntitySchema.OrderedMap

/-! Entity classes as they are declared, without what they inherit. Members are
stored under their folded names, in the order in which they first appeared. -/
namespace EntitySchema

/-- The number of a class in its database. -/
abbrev ClassId := UInt32

/-- A class to inherit from: its folded name, or its number once that is known. -/
inductive Base where
  | named (name : String)
  | linked (id : ClassId)
  deriving DecidableEq, Repr

structure Helper where
  kind : HelperKind
  arguments : List String
  deriving DecidableEq, Repr

structure EntityClass where
  category : Category
  name : String
  bases : List Base
  keyValues : OrderedMap KeyValue
  inputs : OrderedMap Signal
  outputs : OrderedMap Signal
  helpers : List Helper
  description : String

/-- Which of the two maps of signals a signal belongs to. -/
inductive Direction where
  | input | output
  deriving DecidableEq, Repr

namespace EntityClass

def plain (category : Category) (name : String) : EntityClass :=
  ⟨category, name, [], ∅, ∅, ∅, [], ""⟩

instance : Inhabited EntityClass := ⟨plain .base ""⟩

/-- Adds a base by name, unless that name is waiting to be linked already. -/
def addBase (entity : EntityClass) (name : String) : EntityClass :=
  let base := Base.named (fold (trimmed name))
  if base ∈ entity.bases then entity else { entity with bases := entity.bases ++ [base] }

def addKeyValue (entity : EntityClass) (keyValue : KeyValue) : EntityClass :=
  { entity with keyValues := entity.keyValues.insert (fold keyValue.name) keyValue }

def addSignal (entity : EntityClass) (direction : Direction) (signal : Signal) : EntityClass :=
  match direction with
  | .input => { entity with inputs := entity.inputs.insert (fold signal.name) signal }
  | .output => { entity with outputs := entity.outputs.insert (fold signal.name) signal }

def addHelper (entity : EntityClass) (helper : Helper) : EntityClass :=
  { entity with helpers := entity.helpers ++ [helper] }

def isBase (entity : EntityClass) : Bool := entity.category == .base

def summary (entity : EntityClass) : String :=
  if entity.isBase then "<Entity Base " ++ quote entity.name ++ ">"
  else "<Entity " ++ entity.name ++ ">"

/-- Replaces every base name by the class it names, or reports the first name
that names none. -/
def linkBases (entity : EntityClass) (idOf? : String → Option ClassId) :
    Except SemanticProblem EntityClass := do
  let bases ← entity.bases.mapM fun base =>
    match base with
    | .linked id => .ok (.linked id)
    | .named name =>
      match idOf? name with
      | some id => .ok (.linked id)
      | none => .error (.unknownBase name entity.name)
  return { entity with bases }

end EntityClass
end EntitySchema
