import EntitySchema.MessagePack.Reading
import EntitySchema.Snapshot.Writing

/-! Reading snapshots back, more freely than they are written. A record may also be
an array of its fields, fields may come in any order and unknown ones are ignored,
texts may be stored as binary data, and numbers in any width that holds them. Keys
are taken as they are, and bytes behind the database are ignored. -/
namespace EntitySchema.Snapshot

open MessagePack (Value)

/-- How deeply containers may be nested. -/
def maxDepth : Nat := 1023

def textBytes? : Value → Option (List UInt8)
  | .string bytes | .binary bytes => some bytes
  | _ => none

def text? (value : Value) : Option String := (textBytes? value).bind textOfUtf8?

def bool? : Value → Option Bool
  | .bool value => some value
  | _ => none

def integer? : Value → Option Int
  | .unsigned n => some n
  | .signed n => some n
  | _ => none

/-- A number from 0 up to but not including `bound`. -/
def natural? (bound : Nat) (value : Value) : Option Nat := do
  let n ← integer? value
  if 0 ≤ n ∧ n < bound then some n.toNat else none

def int64? (value : Value) : Option Int64 := do
  let n ← integer? value
  if Int64.minValue.toInt ≤ n ∧ n ≤ Int64.maxValue.toInt then some (.ofInt n) else none

/-- Empty binary data passes for an empty list. -/
def list? {α : Type} (item : Value → Option α) : Value → Option (List α)
  | .array items => items.mapM item
  | .binary [] => some []
  | _ => none

/-- The place of a name among the names of fields or alternatives. Names that are not
among them have the place behind the last. -/
def place? (names : List String) : Value → Option Nat
  | .unsigned n => some (min n names.length)
  | value => (textBytes? value).map fun bytes => names.findIdx fun name => utf8 name == bytes

/-- Enters a field into its place, which has to be free; unknown fields have none. -/
def enterField (names : List String) (fields : List (Option Value)) (entry : Value × Value) :
    Option (List (Option Value)) := do
  let place ← place? names entry.1
  match fields[place]? with
  | some none => return fields.set place (some entry.2)
  | some (some _) => none
  | none => return fields

/-- The fields of a record in their declared order, where present. -/
def fields? (names : List String) : Value → Option (List (Option Value))
  | .array items => if items.length = names.length then some (items.map some) else none
  | .map entries => entries.foldlM (enterField names) (names.map fun _ => none)
  | _ => none

/-- The place of an alternative without content among all alternatives. -/
def alternative? (tags : List String) : Value → Option Nat
  | .map [(tag, .nil)] => place? tags tag
  | .map _ => none
  | tag => place? tags tag

/-- The place of an alternative and its content. -/
def tagged? (tags : List String) : Value → Option (Nat × Value)
  | .map [(tag, content)] => (place? tags tag).map fun place => (place, content)
  | _ => none

def valueType? (value : Value) : Option ValueType :=
  (alternative? valueTypeTags value).bind fun place => ValueType.all[place]?

def category? (value : Value) : Option Category :=
  (alternative? categoryTags value).bind fun place => Category.all[place]?

def helperKind? (value : Value) : Option HelperKind :=
  (alternative? helperKindTags value).bind fun place => HelperKind.all[place]?

def flag? (value : Value) : Option FlagEntry := do
  let [some bit, some label, some initial] ← fields? flagFields value | none
  return ⟨⟨(← natural? UInt8.size bit).toUInt8⟩, ← text? label, ← bool? initial⟩

def choice? (value : Value) : Option Choice := do
  let [some value, some label] ← fields? choiceFields value | none
  return ⟨← text? value, ← text? label⟩

def values? : Value → Option (Option ValueList)
  | .nil => some none
  | value =>
    match tagged? valueListTags value with
    | some (0, content) => (list? flag? content).map fun entries => some (.flags entries)
    | some (1, content) => (list? choice? content).map fun entries => some (.choices entries)
    | _ => none

/-- A keyvalue may come without its list of values. -/
def keyValue? (value : Value) : Option KeyValue := do
  let [some name, some type, some displayName, some initial, some description, some readonly,
    values] ← fields? keyValueFields value | none
  return ⟨← text? name, ← valueType? type, ← text? displayName, ← text? initial,
    ← text? description, ← bool? readonly, ← values? (values.getD .nil)⟩

def signal? (value : Value) : Option Signal := do
  let [some name, some type, some description] ← fields? signalFields value | none
  return ⟨← text? name, ← valueType? type, ← text? description⟩

def base? (value : Value) : Option Base :=
  match tagged? baseTags value with
  | some (0, content) => (text? content).map .named
  | some (1, content) => (natural? UInt32.size content).map fun n => .linked n.toUInt32
  | _ => none

def helper? (value : Value) : Option Helper := do
  let [some kind, some arguments] ← fields? helperFields value | none
  return ⟨← helperKind? kind, ← list? text? arguments⟩

def pair? {α : Type} (item : Value → Option α) (entry : Value × Value) : Option (String × α) := do
  return (← text? entry.1, ← item entry.2)

/-- Of entries with the same key, the last one counts, at the place of the first. -/
def map? {α : Type} (item : Value → Option α) : Value → Option (OrderedMap α)
  | .map entries => (entries.mapM (pair? item)).map OrderedMap.ofList
  | _ => none

def class? (value : Value) : Option EntityClass := do
  let [some category, some name, some bases, some keyValues, some inputs, some outputs,
    some helpers, some description] ← fields? classFields value | none
  return ⟨← category? category, ← text? name, ← list? base? bases, ← map? keyValue? keyValues,
    ← map? signal? inputs, ← map? signal? outputs, ← list? helper? helpers, ← text? description⟩

def database? (value : Value) : Option Database := do
  let [some classes, some mapMin, some mapMax, some files] ← fields? databaseFields value | none
  let db : Database := ⟨← map? class? classes, ← int64? mapMin, ← int64? mapMax, []⟩
  return (← list? text? files).foldl Database.beginFile db

/-- The database that a snapshot holds. -/
def read (bytes : List UInt8) : Except Error Database :=
  match MessagePack.readValue maxDepth bytes with
  | some (value, _) =>
    match database? value with
    | some db => .ok db
    | none => .error (.ofCause (.snapshot "not a database"))
  | none => .error (.ofCause (.snapshot "malformed bytes"))

end EntitySchema.Snapshot
