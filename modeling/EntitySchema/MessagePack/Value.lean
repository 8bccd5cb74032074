import EntitySchema.BigEndian

/-! MessagePack values and their shortest encodings. Strings are kept as bytes, as
they need not be UTF-8. Numbers with a fraction and extensions are recognised but
their contents are dropped; they are never written. -/
namespace EntitySchema.MessagePack

inductive Value where
  | nil
  | bool (value : Bool)
  /-- A number stored without a sign. -/
  | unsigned (value : Nat)
  /-- A number stored with a sign, negative or not. -/
  | signed (value : Int)
  | float
  | string (bytes : List UInt8)
  | binary (bytes : List UInt8)
  | array (items : List Value)
  | map (entries : List (Value × Value))
  | extension

/-- A tag followed by a number of `count` bytes. -/
def tagged (tag : UInt8) (count value : Nat) : List UInt8 := tag :: bigEndian count value

def unsignedBytes (n : Nat) : List UInt8 :=
  if n < 0x80 then [n.toUInt8]
  else if n < UInt8.size then tagged 0xcc 1 n
  else if n < UInt16.size then tagged 0xcd 2 n
  else if n < UInt32.size then tagged 0xce 4 n
  else tagged 0xcf 8 n

/-- Negative numbers are stored in two's complement, others without a sign. -/
def integerBytes (n : Int) : List UInt8 :=
  if n ≥ 0 then unsignedBytes n.toNat
  else if n ≥ -32 then [(n + UInt8.size).toNat.toUInt8]
  else if n ≥ Int8.minValue.toInt then tagged 0xd0 1 (n + UInt8.size).toNat
  else if n ≥ Int16.minValue.toInt then tagged 0xd1 2 (n + UInt16.size).toNat
  else if n ≥ Int32.minValue.toInt then tagged 0xd2 4 (n + UInt32.size).toNat
  else tagged 0xd3 8 (n + UInt64.size).toNat

def stringHead (length : Nat) : List UInt8 :=
  if length < 32 then [(0xa0 + length).toUInt8]
  else if length < UInt8.size then tagged 0xd9 1 length
  else if length < UInt16.size then tagged 0xda 2 length
  else tagged 0xdb 4 length

def binaryHead (length : Nat) : List UInt8 :=
  if length < UInt8.size then tagged 0xc4 1 length
  else if length < UInt16.size then tagged 0xc5 2 length
  else tagged 0xc6 4 length

def arrayHead (length : Nat) : List UInt8 :=
  if length < 16 then [(0x90 + length).toUInt8]
  else if length < UInt16.size then tagged 0xdc 2 length
  else tagged 0xdd 4 length

def mapHead (length : Nat) : List UInt8 :=
  if length < 16 then [(0x80 + length).toUInt8]
  else if length < UInt16.size then tagged 0xde 2 length
  else tagged 0xdf 4 length

/-- The shortest encoding of a value. -/
def Value.bytes : Value → List UInt8
  | .nil | .float | .extension => [0xc0]
  | .bool false => [0xc2]
  | .bool true => [0xc3]
  | .unsigned n => unsignedBytes n
  | .signed n => integerBytes n
  | .string text => stringHead text.length ++ text
  | .binary data => binaryHead data.length ++ data
  | .array items => arrayHead items.length ++ items.flatMap Value.bytes
  | .map entries =>
    mapHead entries.length ++ entries.flatMap fun entry => entry.1.bytes ++ entry.2.bytes
termination_by value => sizeOf value
decreasing_by
  · have := List.sizeOf_lt_of_mem ‹_ ∈ items›
    simp only [Value.array.sizeOf_spec]
    omega
  all_goals
    have := List.sizeOf_lt_of_mem ‹_ ∈ entries›
    obtain ⟨key, value⟩ := entry
    simp only [Value.map.sizeOf_spec, Prod.mk.sizeOf_spec] at *
    omega

end EntitySchema.MessagePack
