import EntitySchema.BigEndian
import EntitySchema.Error

/-! Big-endian reads over a byte sequence. A read that asks for more than is left
fails and leaves the reader where it was. -/
namespace EntitySchema.Compact

/-- The unread bytes and how many have been read before them. -/
structure Reader where
  rest : List UInt8
  offset : Nat
  deriving DecidableEq, Repr

abbrev Decoder := EStateM FormatProblem Reader

namespace Reader

def ofBytes (bytes : List UInt8) : Reader := ⟨bytes, 0⟩

def remaining (reader : Reader) : Nat := reader.rest.length

def take (count : Nat) : Decoder (List UInt8) := fun reader =>
  match splitBytes count reader.rest with
  | some (bytes, rest) => .ok bytes ⟨rest, reader.offset + count⟩
  | none => .error (.truncated reader.offset count) reader

def number (count : Nat) : Decoder Nat := ofBigEndian <$> take count

def u8 : Decoder UInt8 := Nat.toUInt8 <$> number 1

def u16 : Decoder UInt16 := Nat.toUInt16 <$> number 2

def u32 : Decoder UInt32 := Nat.toUInt32 <$> number 4

/-- The bit pattern of a binary64 number. -/
def u64 : Decoder UInt64 := Nat.toUInt64 <$> number 8

end Reader

/-- Reads `count` items in a row, those already read being given in reverse. -/
def readMany {α : Type} (item : Decoder α) (items : List α) : Nat → Decoder (List α)
  | 0 => fun reader => .ok items.reverse reader
  | count + 1 => fun reader =>
    match item reader with
    | .ok new after => readMany item (new :: items) count after
    | .error problem after => .error problem after

end EntitySchema.Compact
