import EntitySchema.MessagePack.Value

/-! Reading MessagePack values. Every encoding of a value is accepted, not only the
shortest one, and containers may be nested up to a given depth. -/
namespace EntitySchema.MessagePack

/-- What the first bytes of an encoding announce: a whole value, or the length of
what follows. -/
inductive Head where
  | whole (value : Value)
  | string (length : Nat)
  | binary (length : Nat)
  | array (length : Nat)
  | map (length : Nat)
  | extension (length : Nat)

/-- A number of `count` bytes. -/
def readNumber (count : Nat) (bytes : List UInt8) : Option (Nat × List UInt8) :=
  (splitBytes count bytes).map fun split => (ofBigEndian split.1, split.2)

/-- The number of `count` bytes that is stored in two's complement. -/
def ofTwosComplement (count n : Nat) : Int :=
  if n < 1 <<< (8 * count - 1) then n else (n : Int) - (1 <<< (8 * count) : Nat)

def readUnsigned (count : Nat) (bytes : List UInt8) : Option (Head × List UInt8) :=
  (readNumber count bytes).map fun read => (.whole (.unsigned read.1), read.2)

def readSigned (count : Nat) (bytes : List UInt8) : Option (Head × List UInt8) :=
  (readNumber count bytes).map fun read =>
    (.whole (.signed (ofTwosComplement count read.1)), read.2)

def readFloat (count : Nat) (bytes : List UInt8) : Option (Head × List UInt8) :=
  (splitBytes count bytes).map fun split => (.whole .float, split.2)

/-- A head whose length is a number of `count` bytes. -/
def readLength (head : Nat → Head) (count : Nat) (bytes : List UInt8) :
    Option (Head × List UInt8) :=
  (readNumber count bytes).map fun read => (head read.1, read.2)

/-- Reads the tag of a value and what belongs to it. One tag is reserved. -/
def readHead : List UInt8 → Option (Head × List UInt8)
  | [] => none
  | tag :: rest =>
    let n := tag.toNat
    if n < 0x80 then some (.whole (.unsigned n), rest)
    else if n < 0x90 then some (.map (n - 0x80), rest)
    else if n < 0xa0 then some (.array (n - 0x90), rest)
    else if n < 0xc0 then some (.string (n - 0xa0), rest)
    else if n ≥ 0xe0 then some (.whole (.signed (n - 0x100)), rest)
    else match n with
      | 0xc0 => some (.whole .nil, rest)
      | 0xc2 => some (.whole (.bool false), rest)
      | 0xc3 => some (.whole (.bool true), rest)
      | 0xc4 => readLength .binary 1 rest
      | 0xc5 => readLength .binary 2 rest
      | 0xc6 => readLength .binary 4 rest
      | 0xc7 => readLength .extension 1 rest
      | 0xc8 => readLength .extension 2 rest
      | 0xc9 => readLength .extension 4 rest
      | 0xca => readFloat 4 rest
      | 0xcb => readFloat 8 rest
      | 0xcc => readUnsigned 1 rest
      | 0xcd => readUnsigned 2 rest
      | 0xce => readUnsigned 4 rest
      | 0xcf => readUnsigned 8 rest
      | 0xd0 => readSigned 1 rest
      | 0xd1 => readSigned 2 rest
      | 0xd2 => readSigned 4 rest
      | 0xd3 => readSigned 8 rest
      | 0xd4 => some (.extension 1, rest)
      | 0xd5 => some (.extension 2, rest)
      | 0xd6 => some (.extension 4, rest)
      | 0xd7 => some (.extension 8, rest)
      | 0xd8 => some (.extension 16, rest)
      | 0xd9 => readLength .string 1 rest
      | 0xda => readLength .string 2 rest
      | 0xdb => readLength .string 4 rest
      | 0xdc => readLength .array 2 rest
      | 0xdd => readLength .array 4 rest
      | 0xde => readLength .map 2 rest
      | 0xdf => readLength .map 4 rest
      | _ => none

/-- Reads `count` items in a row, behind those already read in reverse. -/
def readMany {α : Type} (item : List UInt8 → Option (α × List UInt8)) (items : List α) :
    Nat → List UInt8 → Option (List α × List UInt8)
  | 0, bytes => some (items.reverse, bytes)
  | count + 1, bytes =>
    match item bytes with
    | some (new, rest) => readMany item (new :: items) count rest
    | none => none

def readPair {α β : Type} (first : List UInt8 → Option (α × List UInt8))
    (second : List UInt8 → Option (β × List UInt8)) (bytes : List UInt8) :
    Option ((α × β) × List UInt8) := do
  let (a, bytes) ← first bytes
  let (b, bytes) ← second bytes
  return ((a, b), bytes)

/-- Reads what belongs to a head, given how to read the values in a container unless
there may be none. Extensions count as containers, and hold a type before their data. -/
def readContent (inner : Option (List UInt8 → Option (Value × List UInt8)))
    (bytes : List UInt8) : Head → Option (Value × List UInt8)
  | .whole value => some (value, bytes)
  | .string length => (splitBytes length bytes).map fun split => (.string split.1, split.2)
  | .binary length => (splitBytes length bytes).map fun split => (.binary split.1, split.2)
  | .array length => inner.bind fun item =>
    (readMany item [] length bytes).map fun read => (.array read.1, read.2)
  | .map length => inner.bind fun item =>
    (readMany (readPair item item) [] length bytes).map fun read => (.map read.1, read.2)
  | .extension length => inner.bind fun _ =>
    (splitBytes (length + 1) bytes).map fun split => (.extension, split.2)

/-- Reads one value in which containers are nested at most `depth` deep, and returns
the bytes behind it. -/
def readValue : (depth : Nat) → List UInt8 → Option (Value × List UInt8)
  | 0, bytes => (readHead bytes).bind fun read => readContent none read.2 read.1
  | depth + 1, bytes =>
    (readHead bytes).bind fun read => readContent (some (readValue depth)) read.2 read.1

end EntitySchema.MessagePack
