import EntitySchema.Proofs.Binary64.Units

/-! Map bounds are 64-bit integers in memory and binary64 numbers in the compact
format. The way there and back keeps every integer of up to 53 binary digits, and
whatever a number is read as survives further trips. -/
namespace EntitySchema.Binary64

/-- At most 53 binary digits stand in front of the trailing zeros. -/
def Short (n : Nat) : Prop :=
  n < 2 ^ 53 ∨ ∃ fraction shift, 2 ^ 52 ≤ fraction ∧ fraction < 2 ^ 53 ∧ n = fraction * 2 ^ shift

theorem shiftRounded_mul (fraction shift : Nat) :
    shiftRounded (fraction * 2 ^ shift) shift = fraction := by
  have positive : 0 < 2 ^ shift := Nat.two_pow_pos shift
  simp only [shiftRounded, Nat.one_shiftLeft, Nat.mul_mod_left, Nat.mul_div_cancel _ positive]
  rw [if_neg (by omega)]

theorem roundedMagnitude_of_short {n : Nat} (short : Short n) : roundedMagnitude n = n := by
  rw [roundedMagnitude]
  split
  · rfl
  · rename_i many
    have positive : n ≠ 0 := by
      rintro rfl
      exact many (by decide)
    rcases short with small | ⟨fraction, shift, low, high, rfl⟩
    · have digits := (Nat.log2_lt positive).mpr small
      omega
    · have digits : (fraction * 2 ^ shift).log2 = 52 + shift := by
        rw [Nat.log2_eq_iff positive, show 52 + shift + 1 = 53 + shift by omega, Nat.pow_add,
          Nat.pow_add]
        exact ⟨Nat.mul_le_mul_right _ low, Nat.mul_lt_mul_of_pos_right high (Nat.two_pow_pos _)⟩
      rw [digits, show 52 + shift - 52 = shift by omega, shiftRounded_mul]

/-- An integer that is written and read is rounded, and cut down to 64 bits. -/
theorem toInt_ofInt {value : Int} (bound : value.natAbs ≤ 2 ^ 63) :
    toInt (ofInt value) = saturated (if value < 0 then -(roundedMagnitude value.natAbs : Int)
      else roundedMagnitude value.natAbs) := by
  obtain ⟨finite, magnitude, sign⟩ := units_ofInt bound
  rw [toInt_of_finite finite, tdiv_units, magnitude, sign, Nat.mul_div_cancel _ unitsInOne_pos]
  simp only [decide_eq_true_eq]

theorem toInt_ofInt_of_short {value : Int} (short : Short value.natAbs)
    (below : value.natAbs < 2 ^ 63) : toInt (ofInt value) = value := by
  have least : Int64.minValue.toInt = -9223372036854775808 := by decide
  have most : Int64.maxValue.toInt = 9223372036854775807 := by decide
  have same : (if value < 0 then -(value.natAbs : Int) else value.natAbs) = value := by
    split <;> omega
  rw [toInt_ofInt (Nat.le_of_lt below), roundedMagnitude_of_short short, same,
    saturated_eq_self (by omega) (by omega)]

/-- What a magnitude below saturation is cut to has few digits. -/
theorem truncatedMagnitude_short {exponent fraction : Nat} (proper : fraction < leadingBit) :
    Short (truncatedMagnitude exponent fraction) := by
  have unit : leadingBit = 2 ^ 52 := by decide
  rw [truncatedMagnitude]
  split
  · exact Or.inl (by decide)
  · split
    · rw [Nat.shiftLeft_eq]
      exact Or.inr ⟨leadingBit + fraction, exponent - 1075, by omega, by omega, rfl⟩
    · rw [Nat.shiftRight_eq_div_pow]
      have cut := Nat.div_le_self (leadingBit + fraction) (2 ^ (1075 - exponent))
      exact Or.inl (by omega)

/-- Any bit pattern is read as zero, as a bound of the 64-bit integers, or as an
integer of few digits. -/
theorem toInt_cases (bits : Nat) :
    toInt bits = Int64.minValue.toInt ∨ toInt bits = Int64.maxValue.toInt ∨
      Short (toInt bits).natAbs ∧ (toInt bits).natAbs < 2 ^ 63 := by
  rw [toInt_eq]
  split
  · exact Or.inr (Or.inr ⟨Or.inl (by decide), by decide⟩)
  · split
    · split
      · exact Or.inl rfl
      · exact Or.inr (Or.inl rfl)
    · rename_i unsaturated
      have short : Short (truncatedMagnitude (exponentOf bits) (fractionOf bits)) :=
        truncatedMagnitude_short (fractionOf_lt bits)
      have below := magnitudeUnits_div_lt (Nat.lt_of_not_le unsaturated)
      rw [← truncatedMagnitude_eq] at below
      split
      · rw [Int.natAbs_neg]
        exact Or.inr (Or.inr ⟨short, below⟩)
      · exact Or.inr (Or.inr ⟨short, below⟩)

theorem toInt_ofInt_toInt (bits : Nat) : toInt (ofInt (toInt bits)) = toInt bits := by
  rcases toInt_cases bits with lowest | highest | ⟨short, below⟩
  · rw [lowest]
    decide
  · rw [highest]
    decide
  · exact toInt_ofInt_of_short short below

theorem natAbs_toInt_le (value : Int64) : value.toInt.natAbs ≤ 2 ^ 63 := by
  have low := value.le_toInt
  have high := value.toInt_lt
  omega

theorem toInt_toInt64 (bits : Nat) : (toInt64 bits).toInt = toInt bits := by
  apply Int64.toInt_ofInt_of_le
  · rcases toInt_cases bits with lowest | highest | ⟨-, below⟩
    · rw [lowest]
      decide
    · rw [highest]
      decide
    · omega
  · rcases toInt_cases bits with lowest | highest | ⟨-, below⟩
    · rw [lowest]
      decide
    · rw [highest]
      decide
    · omega

/-- Bounds of up to 53 binary digits survive being written and read. -/
theorem toInt64_ofInt64 {value : Int64} (bound : value.toInt.natAbs ≤ 2 ^ 53) :
    toInt64 (ofInt64 value) = value := by
  have short : Short value.toInt.natAbs := by
    rcases Nat.lt_or_eq_of_le bound with below | exact
    · exact Or.inl below
    · exact Or.inr ⟨2 ^ 52, 1, by decide, by decide, exact⟩
  rw [toInt64, ofInt64, toInt_ofInt_of_short short (by omega), Int64.ofInt_toInt]

/-- A bound that has been read is written as a number that reads the same. -/
theorem toInt64_ofInt64_toInt64 (bits : Nat) :
    toInt64 (ofInt64 (toInt64 bits)) = toInt64 bits := by
  rw [toInt64, ofInt64, toInt_toInt64, toInt_ofInt_toInt, toInt64]

/-- A written bound takes 64 bits. -/
theorem ofInt64_lt (value : Int64) : ofInt64 value < 2 ^ 64 := by
  have unit : leadingBit = 4503599627370496 := by decide
  have sign : signBit = 9223372036854775808 := by decide
  have most : value.toInt.natAbs ≤ 2 ^ 63 := natAbs_toInt_le value
  have magnitude : magnitudeBits value.toInt.natAbs < 2 ^ 63 := by
    by_cases zero : value.toInt.natAbs = 0
    · rw [zero]
      decide
    · have digits : value.toInt.natAbs.log2 < 64 := (Nat.log2_lt zero).mpr (by omega)
      have fraction := (fractionDigits_bounds zero).2
      rw [magnitudeBits_eq zero, unit]
      omega
  rw [ofInt64, ofInt, sign]
  split <;> omega

end EntitySchema.Binary64
