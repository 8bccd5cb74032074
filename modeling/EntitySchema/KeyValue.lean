import EntitySchema.ValueType

/-! The properties that entities of a class can carry, with the value lists of
flags and choices, and the signals that a class receives or emits. -/
namespace EntitySchema

/-- One bit of a flag word, by its exponent. -/
structure FlagBit where
  power : UInt8
  deriving DecidableEq, Repr

namespace FlagBit

/-- The number of bits of a flag word. -/
def width : Nat := 128

/-- The bit with the given exponent, of which the formats allow up to 127. -/
def ofPower? (power : UInt8) : Option FlagBit :=
  if power ≤ 127 then some ⟨power⟩ else none

/-- The bit with the given value, if that is the value of a single bit of a flag word. -/
def ofValue? (value : Nat) : Option FlagBit :=
  if value = 1 <<< value.log2 ∧ value.log2 < width then some ⟨value.log2.toUInt8⟩ else none

/-- The value of a bit in a flag word; exponents wrap around the word. -/
def value (bit : FlagBit) : Nat := 1 <<< (bit.power.toNat % width)

end FlagBit

structure FlagEntry where
  bit : FlagBit
  label : String
  /-- Whether newly placed entities have the bit set. -/
  initial : Bool
  deriving DecidableEq, Repr

structure Choice where
  value : String
  label : String
  deriving DecidableEq, Repr

inductive ValueList where
  | flags (entries : List FlagEntry)
  | choices (entries : List Choice)
  deriving DecidableEq, Repr

namespace ValueList

/-- The empty list of the shape a type requires, if it requires one. -/
def emptyFor : ValueType → Option ValueList
  | .flags => some (.flags [])
  | .choices => some (.choices [])
  | _ => none

def length : ValueList → Nat
  | .flags entries => entries.length
  | .choices entries => entries.length

end ValueList

structure KeyValue where
  name : String
  type : ValueType
  displayName : String
  /-- Raw text; empty when no default was given. -/
  initial : String
  description : String
  readonly : Bool
  values : Option ValueList
  deriving DecidableEq, Repr

namespace KeyValue

/-- A keyvalue that is displayed under its own name. -/
def plain (name : String) (type : ValueType) : KeyValue :=
  ⟨name, type, name, "", "", false, ValueList.emptyFor type⟩

def flags (keyValue : KeyValue) : List FlagEntry :=
  match keyValue.values with
  | some (.flags entries) => entries
  | _ => []

def choices (keyValue : KeyValue) : List Choice :=
  match keyValue.values with
  | some (.choices entries) => entries
  | _ => []

/-- Appends a flag; a keyvalue without a list of flags stays as it is. -/
def addFlag (keyValue : KeyValue) (entry : FlagEntry) : KeyValue :=
  match keyValue.values with
  | some (.flags entries) => { keyValue with values := some (.flags (entries ++ [entry])) }
  | _ => keyValue

/-- Appends a choice; a keyvalue without a list of choices stays as it is. -/
def addChoice (keyValue : KeyValue) (choice : Choice) : KeyValue :=
  match keyValue.values with
  | some (.choices entries) => { keyValue with values := some (.choices (entries ++ [choice])) }
  | _ => keyValue

/-- The flag word of a newly placed entity. -/
def initialFlags (keyValue : KeyValue) : Nat :=
  (keyValue.flags.filter (·.initial)).foldl (fun word entry => word ||| entry.bit.value) 0

end KeyValue

/-- A named input or output. -/
structure Signal where
  name : String
  type : ValueType
  description : String
  deriving DecidableEq, Repr

end EntitySchema
