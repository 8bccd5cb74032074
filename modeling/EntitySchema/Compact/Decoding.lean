import EntitySchema.Compact.Encoding

/-! Reading encoded databases back. Classes and members are entered under their
folded names as they are met, and bases are linked at the end. -/
namespace EntitySchema.Compact

open Reader (u8 u16 u32 u64)

def readCategory : Decoder Category := do
  let index ← u8
  match Category.ofIndex? index.toNat with
  | some category => return category
  | none => throw (.invalidCategory index)

def valueTypeAt (index : UInt8) : Decoder ValueType :=
  match ValueType.ofIndex? index.toNat with
  | some type => return type
  | none => throw (.invalidValueType index)

def readFlag (table : StringTable) : Decoder FlagEntry := do
  let packed ← u8
  let label ← table.readString
  match FlagBit.ofPower? (packed % 128) with
  | some bit => return ⟨bit, label, packed ≥ 128⟩
  | none => throw (.invalidFlagPower (packed % 128))

def readChoice (table : StringTable) : Decoder Choice := do
  let value ← table.readString
  let label ← table.readString
  return ⟨value, label⟩

def readKeyValue (table : StringTable) : Decoder KeyValue := do
  let name ← table.readString
  let displayName ← table.readString
  let packed ← u8
  let type ← valueTypeAt (packed % 128)
  let keyValue : KeyValue := ⟨name, type, displayName, "", "", packed ≥ 128, none⟩
  match type with
  | .flags =>
    let count ← u8
    let flags ← readMany (readFlag table) [] count.toNat
    return { keyValue with values := some (.flags flags) }
  | .choices =>
    let initial ← table.readString
    let count ← u16
    let choices ← readMany (readChoice table) [] count.toNat
    return { keyValue with initial, values := some (.choices choices) }
  | _ =>
    let initial ← table.readString
    return { keyValue with initial }

def readSignal (table : StringTable) : Decoder Signal := do
  let name ← table.readString
  let index ← u8
  let type ← valueTypeAt index
  if type.hasList then throw (.listTypeForIo type)
  else return ⟨name, type, ""⟩

def readClass (table : StringTable) : Decoder EntityClass := do
  let category ← readCategory
  let baseCount ← u8
  let keyValueCount ← u8
  let inputCount ← u8
  let outputCount ← u8
  let name ← table.readString
  let bases ← readMany table.readString [] baseCount.toNat
  let keyValues ← readMany (readKeyValue table) [] keyValueCount.toNat
  let inputs ← readMany (readSignal table) [] inputCount.toNat
  let outputs ← readMany (readSignal table) [] outputCount.toNat
  let entity := bases.foldl EntityClass.addBase (.plain category name)
  let entity := keyValues.foldl EntityClass.addKeyValue entity
  let entity := inputs.foldl (EntityClass.addSignal · .input) entity
  return outputs.foldl (EntityClass.addSignal · .output) entity

/-- Checks that the bytes begin as an encoding of a known version does. -/
def readMagic : Decoder Unit := fun reader =>
  match Reader.take magic.length reader with
  | .ok bytes after => if bytes = magic then .ok () after else .error .badMagic after
  | .error _ after => .error .badMagic after

def readVersion : Decoder Unit := do
  let found ← u8
  if found > version then throw (.unknownVersion found)

/-- Reads a database whose bases are not linked yet. -/
def readDatabase : Decoder Database := do
  readMagic
  readVersion
  let mapMin ← u64
  let mapMax ← u64
  let count ← u32
  let table ← StringTable.read
  let classes ← readMany (readClass table) [] count.toNat
  let db : Database :=
    ⟨∅, Binary64.toInt64 mapMin.toNat, Binary64.toInt64 mapMax.toNat, []⟩
  return classes.foldl Database.define db

/-- The database that bytes encode. Bytes behind it are ignored. -/
def decode (bytes : List UInt8) : Except Error Database :=
  match readDatabase (.ofBytes bytes) with
  | .ok db _ =>
    match db.linkBases with
    | (db, none) => .ok db
    | (_, some problem) => .error (.ofCause (.semantic problem))
  | .error problem _ => .error (.ofCause (.format problem))

end EntitySchema.Compact
