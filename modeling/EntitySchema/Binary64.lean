/-! Integers as IEEE 754 binary64 bit patterns and back, in exact arithmetic on
naturals. Writing rounds to nearest with ties to even; reading truncates toward
zero and saturates at the bounds of 64-bit integers, and sends NaN to zero. -/
namespace EntitySchema.Binary64

/-- `n` without its lowest `shift` bits, rounded to nearest, ties to even. -/
def shiftRounded (n shift : Nat) : Nat :=
  let unit := 1 <<< shift
  let quotient := n / unit
  let remainder := n % unit
  if 2 * remainder > unit ∨ (2 * remainder = unit ∧ quotient % 2 = 1) then quotient + 1
  else quotient

/-- The leading bit of a fraction of 53 bits. The formats do not store it. -/
def leadingBit : Nat := 1 <<< 52

/-- The bit that marks negative values. -/
def signBit : Nat := 1 <<< 63

/-- Exponent and fraction fields of a positive integer. The fraction keeps its
leading bit, which adds one to the exponent field; a fraction rounded up to the
next power of two adds one more. -/
def magnitudeBits (n : Nat) : Nat :=
  if n = 0 then 0
  else
    let exponent := n.log2
    let fraction := if exponent ≤ 52 then n <<< (52 - exponent) else shiftRounded n (exponent - 52)
    (exponent + 1022) * leadingBit + fraction

/-- The bit pattern of the binary64 value nearest to an integer. -/
def ofInt (value : Int) : Nat :=
  (if value < 0 then signBit else 0) + magnitudeBits value.natAbs

/-- The integer part of the magnitude of a finite bit pattern. -/
def truncatedMagnitude (exponent fraction : Nat) : Nat :=
  if exponent = 0 then 0
  else if exponent ≥ 1075 then (leadingBit + fraction) <<< (exponent - 1075)
  else (leadingBit + fraction) >>> (1075 - exponent)

/-- The integer a bit pattern stands for. -/
def toInt (bits : Nat) : Int :=
  let exponent := bits / leadingBit % 2048
  let fraction := bits % leadingBit
  let negative := bits / signBit % 2 = 1
  if exponent = 2047 ∧ fraction ≠ 0 then 0
  else if exponent ≥ 1086 then if negative then Int64.minValue.toInt else Int64.maxValue.toInt
  else if negative then -(truncatedMagnitude exponent fraction : Int)
  else truncatedMagnitude exponent fraction

def ofInt64 (value : Int64) : Nat := ofInt value.toInt

def toInt64 (bits : Nat) : Int64 := Int64.ofInt (toInt bits)

end EntitySchema.Binary64
