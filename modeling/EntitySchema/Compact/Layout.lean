import EntitySchema.Database

/-! What the compact format stores of the classes of a database, as a sequence of
fields. A layout that meets something the format cannot hold stops there and keeps
the fields before it. -/
namespace EntitySchema.Compact

/-- One field: a byte, a number of 16 bits, or a string to be stored by number. -/
inductive Field where
  | byte (value : UInt8)
  | word (value : UInt16)
  | text (value : String)
  deriving DecidableEq, Repr

structure Layout where
  fields : List Field
  problem : Option Cause

namespace Layout

def ofFields (fields : List Field) : Layout := ⟨fields, none⟩

def stop (cause : Cause) : Layout := ⟨[], some cause⟩

/-- One layout followed by another, unless the first one stops. -/
def append (first second : Layout) : Layout :=
  match first.problem with
  | some _ => first
  | none => ⟨first.fields ++ second.fields, second.problem⟩

instance : Append Layout := ⟨append⟩

/-- Layouts in a row, the fields before them given in reverse. -/
def concatFrom (fields : List Field) : List Layout → Layout
  | [] => ⟨fields.reverse, none⟩
  | first :: rest =>
    match first.problem with
    | some _ => ⟨(first.fields.reverse ++ fields).reverse, first.problem⟩
    | none => concatFrom (first.fields.reverse ++ fields) rest

def concat (layouts : List Layout) : Layout := concatFrom [] layouts

def byte (n : Nat) : Layout := ofFields [.byte n.toUInt8]

def text (value : String) : Layout := ofFields [.text value]

def tooMany (what : Counted) (count limit : Nat) (classname : String) : Layout :=
  stop (.capacity (.tooManyItems what count limit classname))

/-- A count of at most 255, in a class of the given name. -/
def count8 (what : Counted) (count : Nat) (classname : String) : Layout :=
  if count ≤ 255 then byte count else tooMany what count 255 classname

def count16 (what : Counted) (count : Nat) (classname : String) : Layout :=
  if count ≤ 65535 then ofFields [.word count.toUInt16]
  else tooMany what count 65535 classname

end Layout

/-- A number of seven bits with a mark in the eighth. -/
def marked (n : Nat) (mark : Bool) : Nat := n % 128 + if mark then 128 else 0

def flagLayout (entry : FlagEntry) : Layout :=
  .ofFields [.byte (marked entry.bit.power.toNat entry.initial).toUInt8, .text entry.label]

def choiceLayout (choice : Choice) : Layout :=
  .ofFields [.text choice.value, .text choice.label]

/-- Descriptions are not stored, nor is the default of a flag word. -/
def keyValueLayout (classname : String) (keyValue : KeyValue) : Layout :=
  let head := Layout.ofFields [.text keyValue.name, .text keyValue.displayName,
    .byte (marked keyValue.type.index keyValue.readonly).toUInt8]
  match keyValue.type with
  | .flags =>
    let flags := keyValue.flags
    head ++ Layout.count8 .flag flags.length classname ++ Layout.concat (flags.map flagLayout)
  | .choices =>
    let choices := keyValue.choices
    head ++ Layout.text keyValue.initial ++ Layout.count16 .choice choices.length classname ++
      Layout.concat (choices.map choiceLayout)
  | _ => head ++ Layout.text keyValue.initial

def signalLayout (signal : Signal) : Layout :=
  if signal.type.hasList then .stop (.semantic (.listTypeForIo signal.type))
  else .ofFields [.text signal.name, .byte signal.type.index.toUInt8]

/-- A base is stored by the name of its class. -/
def baseLayout (db : Database) (classname : String) (base : Base) : Layout :=
  match base with
  | .named name => .text name
  | .linked id =>
    match db.classAt? id with
    | some entity => .text entity.name
    | none => .stop (.semantic (.danglingBase id classname))

/-- Helpers are not stored. -/
def classLayout (db : Database) (entity : EntityClass) : Layout :=
  let signals := entity.inputs.values ++ entity.outputs.values
  Layout.byte entity.category.index ++
    Layout.count8 .base entity.bases.length entity.name ++
    Layout.count8 .keyvalue entity.keyValues.size entity.name ++
    Layout.count8 .input entity.inputs.size entity.name ++
    Layout.count8 .output entity.outputs.size entity.name ++
    Layout.text entity.name ++
    Layout.concat (entity.bases.map (baseLayout db entity.name)) ++
    Layout.concat (entity.keyValues.values.map (keyValueLayout entity.name)) ++
    Layout.concat (signals.map signalLayout)

def layout (db : Database) : Layout :=
  .concat (db.classes.values.map (classLayout db))

end EntitySchema.Compact
