/-! Numbers as bytes, the most significant byte first. -/
namespace EntitySchema

/-- The number that bytes stand for. -/
def ofBigEndian (bytes : List UInt8) : Nat :=
  bytes.foldl (fun value byte => value * 256 + byte.toNat) 0

/-- The lowest `count` bytes of a number. -/
def bigEndian : (count : Nat) → Nat → List UInt8
  | 0, _ => []
  | count + 1, value => (value >>> (8 * count)).toUInt8 :: bigEndian count value

theorem length_bigEndian (count value : Nat) : (bigEndian count value).length = count := by
  induction count with
  | zero => rfl
  | succ count ih => simp [bigEndian, ih]

/-- The first `count` bytes, behind `taken` in reverse, and what is left. -/
def splitBytesFrom (taken : List UInt8) : Nat → List UInt8 → Option (List UInt8 × List UInt8)
  | 0, rest => some (taken.reverse, rest)
  | _ + 1, [] => none
  | count + 1, byte :: rest => splitBytesFrom (byte :: taken) count rest

/-- The first `count` bytes and what is left, if there are that many. -/
def splitBytes (count : Nat) (bytes : List UInt8) : Option (List UInt8 × List UInt8) :=
  splitBytesFrom [] count bytes

theorem splitBytesFrom_append (taken bytes rest : List UInt8) :
    splitBytesFrom taken bytes.length (bytes ++ rest) = some (taken.reverse ++ bytes, rest) := by
  induction bytes generalizing taken with
  | nil => simp [splitBytesFrom]
  | cons byte bytes ih => simp [splitBytesFrom, ih]

/-- Bytes in front are split off by their number. -/
theorem splitBytes_append (bytes rest : List UInt8) :
    splitBytes bytes.length (bytes ++ rest) = some (bytes, rest) :=
  splitBytesFrom_append [] bytes rest

end EntitySchema
