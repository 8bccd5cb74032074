import EntitySchema.Binary64
import Mathlib.Algebra.Group.Nat.Defs

/-! What bit patterns stand for, as whole numbers of units: every finite number is a multiple of
the least positive one. An integer is written as a number of these, and reading leaves out the
part of a number behind the point. -/
namespace EntitySchema.Binary64

/-- The least positive number is two to the power of minus this. -/
def leastPlace : Nat := 1074

def unitsInOne : Nat := 2 ^ leastPlace

theorem unitsInOne_pos : 0 < unitsInOne := Nat.two_pow_pos leastPlace

section Fields

def exponentOf (bits : Nat) : Nat := bits / leadingBit % 2048

def fractionOf (bits : Nat) : Nat := bits % leadingBit

def isNegative (bits : Nat) : Bool := bits / signBit % 2 = 1

theorem fractionOf_lt (bits : Nat) : fractionOf bits < leadingBit := Nat.mod_lt _ (by decide)

theorem fields_of_pattern {exponent fraction : Nat} (small : exponent < 2048)
    (proper : fraction < leadingBit) (negative : Prop) [Decidable negative] :
    let bits := (if negative then signBit else 0) + (exponent * leadingBit + fraction)
    exponentOf bits = exponent ∧ fractionOf bits = fraction ∧
      isNegative bits = decide negative := by
  have unit : leadingBit = 4503599627370496 := by decide
  have sign : signBit = 9223372036854775808 := by decide
  rw [unit] at proper
  simp only [exponentOf, fractionOf, isNegative, unit, sign, decide_eq_decide]
  split <;> rename_i marked
  · simp only [marked, iff_true]
    omega
  · simp only [marked, iff_false]
    omega

/-- The greatest exponent field marks what is not a finite number. -/
def IsFinite (bits : Nat) : Prop := exponentOf bits ≠ 2047

instance (bits : Nat) : Decidable (IsFinite bits) := inferInstanceAs (Decidable (_ ≠ _))

/-- Below the numbers with a leading bit there are those whose fraction has none. -/
def magnitudeUnits (bits : Nat) : Nat :=
  if exponentOf bits = 0 then fractionOf bits
  else (leadingBit + fractionOf bits) * 2 ^ (exponentOf bits - 1)

/-- The number of a finite bit pattern, in units. -/
def units (bits : Nat) : Int :=
  if isNegative bits then -(magnitudeUnits bits : Int) else magnitudeUnits bits

theorem natAbs_units (bits : Nat) : (units bits).natAbs = magnitudeUnits bits := by
  rw [units]
  split <;> omega

/-- A fraction of 53 bits is added to the exponent field with its leading bit. Where it has
been rounded up to 54 bits, it adds two, and what is left of it is zero. -/
theorem units_of_pattern {exponent fraction : Nat} (small : exponent < 2045)
    (least : 2 ^ 52 ≤ fraction) (most : fraction ≤ 2 ^ 53)
    (negative : Prop) [Decidable negative] :
    let bits := (if negative then signBit else 0) + (exponent * leadingBit + fraction)
    IsFinite bits ∧ magnitudeUnits bits = fraction * 2 ^ exponent ∧
      isNegative bits = decide negative := by
  have unit : leadingBit = 2 ^ 52 := by decide
  by_cases full : fraction = 2 ^ 53
  · have same : exponent * leadingBit + fraction = (exponent + 2) * leadingBit + 0 := by
      rw [unit]
      omega
    rw [same]
    obtain ⟨exponentSame, fractionSame, sign⟩ :=
      fields_of_pattern (show exponent + 2 < 2048 by omega) (show 0 < leadingBit by omega) negative
    refine ⟨?_, ?_, sign⟩
    · rw [IsFinite, exponentSame]
      omega
    · rw [magnitudeUnits, exponentSame, fractionSame, if_neg (by omega), unit, full,
        show exponent + 2 - 1 = exponent + 1 by omega, Nat.pow_succ]
      omega
  · have same : exponent * leadingBit + fraction =
        (exponent + 1) * leadingBit + (fraction - leadingBit) := by
      rw [unit]
      omega
    rw [same]
    obtain ⟨exponentSame, fractionSame, sign⟩ := fields_of_pattern
      (show exponent + 1 < 2048 by omega) (show fraction - leadingBit < leadingBit by omega)
      negative
    refine ⟨?_, ?_, sign⟩
    · rw [IsFinite, exponentSame]
      omega
    · rw [magnitudeUnits, exponentSame, fractionSame, if_neg (by omega), Nat.add_sub_cancel,
        show leadingBit + (fraction - leadingBit) = fraction by omega]

end Fields

section Writing

variable {n : Nat} {value : Int}

/-- The 53 bits that are kept of a positive integer, or those of the next power of two. -/
def fractionDigits (n : Nat) : Nat :=
  if n.log2 ≤ 52 then n <<< (52 - n.log2) else shiftRounded n (n.log2 - 52)

/-- What a natural number is rounded to. -/
def roundedMagnitude (n : Nat) : Nat :=
  if n.log2 ≤ 52 then n else shiftRounded n (n.log2 - 52) * 2 ^ (n.log2 - 52)

theorem magnitudeBits_eq (positive : n ≠ 0) :
    magnitudeBits n = (n.log2 + 1022) * leadingBit + fractionDigits n := by
  rw [magnitudeBits, if_neg positive]
  rfl

theorem fractionDigits_bounds (positive : n ≠ 0) :
    2 ^ 52 ≤ fractionDigits n ∧ fractionDigits n ≤ 2 ^ 53 := by
  have lower := Nat.log2_self_le positive
  have upper := Nat.lt_log2_self (n := n)
  rw [fractionDigits]
  split
  · rename_i few
    rw [Nat.shiftLeft_eq]
    constructor
    · calc 2 ^ 52 = 2 ^ n.log2 * 2 ^ (52 - n.log2) := by rw [← Nat.pow_add]; congr 1; omega
        _ ≤ n * 2 ^ (52 - n.log2) := Nat.mul_le_mul_right _ lower
    · calc n * 2 ^ (52 - n.log2) ≤ 2 ^ (n.log2 + 1) * 2 ^ (52 - n.log2) :=
            Nat.mul_le_mul_right _ (Nat.le_of_lt upper)
        _ = 2 ^ 53 := by rw [← Nat.pow_add]; congr 1; omega
  · rename_i many
    have cut : 2 ^ 52 ≤ n / 2 ^ (n.log2 - 52) ∧ n / 2 ^ (n.log2 - 52) < 2 ^ 53 := by
      rw [Nat.le_div_iff_mul_le (Nat.two_pow_pos _), Nat.div_lt_iff_lt_mul (Nat.two_pow_pos _),
        ← Nat.pow_add, ← Nat.pow_add, show 52 + (n.log2 - 52) = n.log2 by omega,
        show 53 + (n.log2 - 52) = n.log2 + 1 by omega]
      exact ⟨lower, upper⟩
    simp only [shiftRounded, Nat.one_shiftLeft]
    split <;> omega

theorem fractionDigits_units (n : Nat) :
    fractionDigits n * 2 ^ (n.log2 + 1022) = roundedMagnitude n * unitsInOne := by
  have place : leastPlace = 1074 := rfl
  rw [fractionDigits, roundedMagnitude, unitsInOne]
  split
  · rw [Nat.shiftLeft_eq, Nat.mul_assoc, ← Nat.pow_add,
      show 52 - n.log2 + (n.log2 + 1022) = leastPlace by omega]
  · rw [Nat.mul_assoc, ← Nat.pow_add, show n.log2 - 52 + leastPlace = n.log2 + 1022 by omega]

/-- The number that an integer is written as. -/
theorem units_ofInt (bound : value.natAbs ≤ 2 ^ 63) :
    IsFinite (ofInt value) ∧
      magnitudeUnits (ofInt value) = roundedMagnitude value.natAbs * unitsInOne ∧
      isNegative (ofInt value) = decide (value < 0) := by
  by_cases zero : value = 0
  · subst zero
    have none : roundedMagnitude (0 : Int).natAbs = 0 := rfl
    refine ⟨by decide, ?_, by decide⟩
    rw [none, Nat.zero_mul]
    decide
  · have positive : value.natAbs ≠ 0 := by omega
    obtain ⟨least, most⟩ := fractionDigits_bounds positive
    have digits : value.natAbs.log2 < 64 := (Nat.log2_lt positive).mpr (by omega)
    rw [ofInt, magnitudeBits_eq positive, ← fractionDigits_units]
    exact units_of_pattern (by omega) least most _

end Writing

section Reading

variable {bits : Nat} {value : Int}

/-- An integer, or the bound of the 64-bit integers that it is beyond. -/
def saturated (value : Int) : Int :=
  if value < Int64.minValue.toInt then Int64.minValue.toInt
  else if Int64.maxValue.toInt < value then Int64.maxValue.toInt
  else value

theorem saturated_of_le (low : value ≤ Int64.minValue.toInt) :
    saturated value = Int64.minValue.toInt := by
  have order : Int64.minValue.toInt ≤ Int64.maxValue.toInt := by decide
  grind [saturated]

theorem saturated_of_ge (high : Int64.maxValue.toInt ≤ value) :
    saturated value = Int64.maxValue.toInt := by
  have order : Int64.minValue.toInt ≤ Int64.maxValue.toInt := by decide
  grind [saturated]

theorem saturated_eq_self (low : Int64.minValue.toInt ≤ value)
    (high : value ≤ Int64.maxValue.toInt) : saturated value = value := by
  rw [saturated, if_neg (Int.not_lt.mpr low), if_neg (Int.not_lt.mpr high)]

theorem saturated_mono {other : Int} (order : value ≤ other) :
    saturated value ≤ saturated other := by
  have bounds : Int64.minValue.toInt ≤ Int64.maxValue.toInt := by decide
  grind [saturated]

theorem toInt_eq (bits : Nat) :
    toInt bits =
      if exponentOf bits = 2047 ∧ fractionOf bits ≠ 0 then 0
      else if exponentOf bits ≥ 1086 then
        if isNegative bits then Int64.minValue.toInt else Int64.maxValue.toInt
      else if isNegative bits then -(truncatedMagnitude (exponentOf bits) (fractionOf bits) : Int)
      else truncatedMagnitude (exponentOf bits) (fractionOf bits) := by
  simp only [toInt, isNegative, decide_eq_true_eq]
  rfl

theorem truncatedMagnitude_eq (bits : Nat) :
    truncatedMagnitude (exponentOf bits) (fractionOf bits) = magnitudeUnits bits / unitsInOne := by
  have unit : leadingBit = 2 ^ 52 := by decide
  have place : leastPlace = 1074 := rfl
  have proper := fractionOf_lt bits
  rw [truncatedMagnitude, magnitudeUnits]
  split
  · rw [Nat.div_eq_of_lt]
    calc fractionOf bits < 2 ^ 52 := by omega
      _ ≤ unitsInOne := Nat.pow_le_pow_right (by decide) (by omega)
  · split
    · rw [Nat.shiftLeft_eq, show exponentOf bits - 1 = exponentOf bits - 1075 + leastPlace by omega,
        Nat.pow_add, ← Nat.mul_assoc]
      exact (Nat.mul_div_cancel _ unitsInOne_pos).symm
    · rw [Nat.shiftRight_eq_div_pow, unitsInOne,
        show leastPlace = 1075 - exponentOf bits + (exponentOf bits - 1) by omega, Nat.pow_add,
        Nat.mul_div_mul_right _ _ (Nat.two_pow_pos _)]

theorem le_magnitudeUnits_div (large : exponentOf bits ≥ 1086) :
    2 ^ 63 ≤ magnitudeUnits bits / unitsInOne := by
  have unit : leadingBit = 2 ^ 52 := by decide
  rw [← truncatedMagnitude_eq, truncatedMagnitude, if_neg (by omega), if_pos (by omega),
    Nat.shiftLeft_eq]
  calc 2 ^ 63 = 2 ^ 52 * 2 ^ 11 := by decide
    _ ≤ (leadingBit + fractionOf bits) * 2 ^ (exponentOf bits - 1075) :=
      Nat.mul_le_mul (by omega) (Nat.pow_le_pow_right (by decide) (by omega))

theorem magnitudeUnits_div_lt (small : exponentOf bits < 1086) :
    magnitudeUnits bits / unitsInOne < 2 ^ 63 := by
  have unit : leadingBit = 2 ^ 52 := by decide
  have proper := fractionOf_lt bits
  rw [← truncatedMagnitude_eq, truncatedMagnitude]
  split
  · decide
  · split
    · rw [Nat.shiftLeft_eq]
      calc (leadingBit + fractionOf bits) * 2 ^ (exponentOf bits - 1075)
          < 2 ^ 53 * 2 ^ (exponentOf bits - 1075) :=
            Nat.mul_lt_mul_of_pos_right (by omega) (Nat.two_pow_pos _)
        _ ≤ 2 ^ 53 * 2 ^ 10 :=
            Nat.mul_le_mul_left _ (Nat.pow_le_pow_right (by decide) (by omega))
    · rw [Nat.shiftRight_eq_div_pow]
      have cut := Nat.div_le_self (leadingBit + fractionOf bits) (2 ^ (1075 - exponentOf bits))
      omega

theorem tdiv_units (bits : Nat) :
    (units bits).tdiv unitsInOne =
      if isNegative bits then -((magnitudeUnits bits / unitsInOne : Nat) : Int)
      else ((magnitudeUnits bits / unitsInOne : Nat) : Int) := by
  rw [units]
  split
  · rw [Int.neg_tdiv, Int.ofNat_tdiv]
  · rw [Int.ofNat_tdiv]

/-- A finite number is read without what stands behind its point. -/
theorem toInt_of_finite (finite : IsFinite bits) :
    toInt bits = saturated ((units bits).tdiv unitsInOne) := by
  have least : Int64.minValue.toInt = -9223372036854775808 := by decide
  have most : Int64.maxValue.toInt = 9223372036854775807 := by decide
  rw [toInt_eq, if_neg (fun undefined => finite undefined.1), tdiv_units, truncatedMagnitude_eq]
  by_cases large : exponentOf bits ≥ 1086
  · have beyond := le_magnitudeUnits_div large
    generalize magnitudeUnits bits / unitsInOne = whole at *
    rw [if_pos large]
    split
    · rw [saturated_of_le (by omega)]
    · rw [saturated_of_ge (by omega)]
  · have below := magnitudeUnits_div_lt (Nat.lt_of_not_le large)
    generalize magnitudeUnits bits / unitsInOne = whole at *
    rw [if_neg large]
    split
    · rw [saturated_eq_self (by omega) (by omega)]
    · rw [saturated_eq_self (by omega) (by omega)]

end Reading

end EntitySchema.Binary64
