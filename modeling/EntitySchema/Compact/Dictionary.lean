import EntitySchema.Compact.Reader
import EntitySchema.OrderedMap
import EntitySchema.Text.Utf8

/-! The string table of the compact format. Each distinct string has a number of 16
bits, given out in order of first use; the table is written once, and all else
refers to it. -/
namespace EntitySchema.Compact

/-- How many strings numbers of 16 bits can tell apart. -/
def maxStrings : Nat := UInt16.size

/-- How many bytes a length of 16 bits can announce. -/
def maxStringBytes : Nat := UInt16.size - 1

/-- The strings met so far, as the keys of a map. -/
structure Dictionary where
  strings : OrderedMap Unit

namespace Dictionary

def empty : Dictionary := ⟨∅⟩

def size (dictionary : Dictionary) : Nat := dictionary.strings.size

/-- The number of a string that has been entered. -/
def idOf? (dictionary : Dictionary) (text : String) : Option UInt16 :=
  (dictionary.strings.position? text).map Nat.toUInt16

/-- The number of a string, which is entered unless it is known. A full table takes
no new string. -/
def enter (text : String) : EStateM CapacityProblem Dictionary UInt16 := fun dictionary =>
  match dictionary.strings.position? text with
  | some i => .ok i.toUInt16 dictionary
  | none =>
    if dictionary.size < maxStrings then
      .ok dictionary.size.toUInt16 ⟨dictionary.strings.insert text ()⟩
    else .error (.dictionaryOverflow maxStrings) dictionary

/-- Enters strings from left to right, up to the first that does not fit. -/
def enterAll : List String → EStateM CapacityProblem Dictionary Unit
  | [] => fun dictionary => .ok () dictionary
  | text :: rest => fun dictionary =>
    match enter text dictionary with
    | .ok _ dictionary => enterAll rest dictionary
    | .error problem dictionary => .error problem dictionary

/-- One entry of the written table: the length of the string and its bytes. -/
def entryBytes (text : String) : Except CapacityProblem (List UInt8) :=
  let bytes := utf8 text
  if bytes.length ≤ maxStringBytes then .ok (bigEndian 2 bytes.length ++ bytes)
  else .error (.stringTooLong bytes.length maxStringBytes)

/-- The written table: the number of strings, then each string. -/
def serialize (dictionary : Dictionary) : Except CapacityProblem (List UInt8) := do
  let entries ← dictionary.strings.keys.mapM entryBytes
  return bigEndian 4 dictionary.size ++ entries.flatten

end Dictionary

/-- A string table that has been read back. -/
structure StringTable where
  strings : Array String
  deriving DecidableEq, Repr

namespace StringTable

/-- Reads the string of one entry and its bytes, given its position. -/
def readEntry (position : Nat) : Decoder String := do
  let length ← Reader.u16
  let bytes ← Reader.take length.toNat
  match textOfUtf8? bytes with
  | some text => return text
  | none => throw (.invalidUtf8 position)

/-- Reads `count` further entries behind those in the table. -/
def readEntries (table : StringTable) : Nat → Decoder StringTable
  | 0 => fun reader => .ok table reader
  | count + 1 => fun reader =>
    match readEntry table.strings.size reader with
    | .ok text after => readEntries ⟨table.strings.push text⟩ count after
    | .error problem after => .error problem after

def read : Decoder StringTable := do
  let count ← Reader.u32
  readEntries ⟨#[]⟩ count.toNat

def lookup (table : StringTable) (id : UInt16) : Except FormatProblem String :=
  match table.strings[id.toNat]? with
  | some text => .ok text
  | none => .error (.invalidStringId id table.strings.size)

/-- Reads a number and looks up its string. -/
def readString (table : StringTable) : Decoder String := do
  let id ← Reader.u16
  match table.lookup id with
  | .ok text => return text
  | .error problem => throw problem

end StringTable
end EntitySchema.Compact
