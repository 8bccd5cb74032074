import EntitySchema.Database
import EntitySchema.MessagePack.Value
import EntitySchema.Snapshot.Tags
import EntitySchema.Text.Utf8

/-! Databases as MessagePack values. Records become maps from field names, and
alternatives with content become maps of a single entry. Nothing is left out. -/
namespace EntitySchema.Snapshot

open MessagePack (Value)

def textValue (text : String) : Value := .string (utf8 text)

def listValue {α : Type} (item : α → Value) (items : List α) : Value := .array (items.map item)

def recordValue (fields : List (String × Value)) : Value :=
  .map (fields.map fun field => (textValue field.1, field.2))

/-- An alternative with content. -/
def taggedValue (tag : String) (content : Value) : Value := .map [(textValue tag, content)]

def mapValue {α : Type} (item : α → Value) (map : OrderedMap α) : Value :=
  .map (map.toList.map fun entry => (textValue entry.1, item entry.2))

def flagFields : List String := ["bit", "label", "default"]

def flagValue (entry : FlagEntry) : Value :=
  recordValue (flagFields.zip
    [.unsigned entry.bit.power.toNat, textValue entry.label, .bool entry.initial])

def choiceFields : List String := ["value", "label"]

def choiceValue (choice : Choice) : Value :=
  recordValue (choiceFields.zip [textValue choice.value, textValue choice.label])

def valuesValue : Option ValueList → Value
  | none => .nil
  | some (.flags entries) => taggedValue "Flags" (listValue flagValue entries)
  | some (.choices entries) => taggedValue "Choices" (listValue choiceValue entries)

def keyValueFields : List String :=
  ["name", "value_type", "display_name", "default", "description", "readonly", "values"]

def keyValueValue (keyValue : KeyValue) : Value :=
  recordValue (keyValueFields.zip
    [textValue keyValue.name, textValue (valueTypeTag keyValue.type),
      textValue keyValue.displayName, textValue keyValue.initial,
      textValue keyValue.description, .bool keyValue.readonly, valuesValue keyValue.values])

def signalFields : List String := ["name", "value_type", "description"]

def signalValue (signal : Signal) : Value :=
  recordValue (signalFields.zip
    [textValue signal.name, textValue (valueTypeTag signal.type), textValue signal.description])

def baseValue : Base → Value
  | .named name => taggedValue "Unresolved" (textValue name)
  | .linked id => taggedValue "Resolved" (.unsigned id.toNat)

def helperFields : List String := ["kind", "args"]

def helperValue (helper : Helper) : Value :=
  recordValue (helperFields.zip
    [textValue (helperKindTag helper.kind), listValue textValue helper.arguments])

def classFields : List String :=
  ["category", "classname", "bases", "keyvalues", "inputs", "outputs", "helpers", "description"]

def classValue (entity : EntityClass) : Value :=
  recordValue (classFields.zip
    [textValue (categoryTag entity.category), textValue entity.name,
      listValue baseValue entity.bases, mapValue keyValueValue entity.keyValues,
      mapValue signalValue entity.inputs, mapValue signalValue entity.outputs,
      listValue helperValue entity.helpers, textValue entity.description])

def databaseFields : List String := ["entities", "map_size_min", "map_size_max", "included"]

def databaseValue (db : Database) : Value :=
  recordValue (databaseFields.zip
    [mapValue classValue db.classes, .signed db.mapMin.toInt, .signed db.mapMax.toInt,
      listValue textValue db.files])

/-- The bytes of a snapshot. -/
def write (db : Database) : List UInt8 := (databaseValue db).bytes

end EntitySchema.Snapshot
