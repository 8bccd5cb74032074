import EntitySchema.Binary64
import EntitySchema.Compact.Dictionary
import EntitySchema.Compact.Layout

/-! Databases as bytes: the letters FGD, a version, the map bounds as binary64
numbers, the number of classes, the string table, and the fields of the classes. -/
namespace EntitySchema.Compact

/-- How an encoding begins. -/
def magic : List UInt8 := [0x46, 0x47, 0x44]

/-- The version that is written, and the newest one that is read. -/
def version : UInt8 := 1

/-- The strings among fields, in order. -/
def textsOf (fields : List Field) : List String :=
  fields.filterMap fun
    | .text value => some value
    | _ => none

/-- The bytes of a field, its string being looked up in a dictionary that has it. -/
def fieldBytes (dictionary : Dictionary) (field : Field) : List UInt8 :=
  match field with
  | .byte value => [value]
  | .word value => bigEndian 2 value.toNat
  | .text value => bigEndian 2 ((dictionary.idOf? value).getD 0).toNat

/-- What precedes the string table. -/
def headerBytes (db : Database) : List UInt8 :=
  magic ++ [version] ++ bigEndian 8 (Binary64.ofInt64 db.mapMin) ++
    bigEndian 8 (Binary64.ofInt64 db.mapMax) ++ bigEndian 4 db.size

/-- Of several problems the one met first is reported: strings are entered while the
fields are laid out, and the table is written last. -/
def encodeCause (db : Database) : Except Cause (List UInt8) :=
  let laid := layout db
  match Dictionary.enterAll (textsOf laid.fields) .empty, laid.problem with
  | .error problem _, _ => .error (.capacity problem)
  | .ok () _, some cause => .error cause
  | .ok () dictionary, none =>
    if db.size ≥ UInt32.size then
      .error (.capacity (.tooManyItems .entity db.size (UInt32.size - 1) ""))
    else
      match dictionary.serialize with
      | .ok table => .ok (headerBytes db ++ table ++ laid.fields.flatMap (fieldBytes dictionary))
      | .error problem => .error (.capacity problem)

def encode (db : Database) : Except Error (List UInt8) :=
  (encodeCause db).mapError Error.ofCause

end EntitySchema.Compact
