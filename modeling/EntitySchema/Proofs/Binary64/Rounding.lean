import EntitySchema.Compact.Encoding
import EntitySchema.Proofs.MapBounds
import EntitySchema.Proofs.Reading
import Mathlib.Data.Nat.Dist

/-! Written map bounds are the nearest numbers that there are, of two equally near ones the one
with an even fraction, and numbers are read by cutting them off. From this alone it follows that
bounds keep their order on the way through the compact format. -/
namespace EntitySchema.Binary64

/-- How far a number is from an integer, in units. -/
def distance (value : Int) (bits : Nat) : Nat := (units bits - value * unitsInOne).natAbs

/-- A finite number that no other is nearer to an integer than, and whose last bit is zero if
another one is as near. -/
structure RoundsToEven (value : Int) (bits : Nat) : Prop where
  finite : IsFinite bits
  nearest : ∀ other, IsFinite other → distance value bits ≤ distance value other
  even : ∀ other, IsFinite other → units other ≠ units bits →
    distance value other = distance value bits → bits % 2 = 0

/-- What a bit pattern is read as: a number without the part behind its point, as far as 64 bits
hold it, and zero for what is no number. -/
structure TruncatesTo (bits : Nat) (value : Int64) : Prop where
  finite : IsFinite bits → value.toInt = saturated ((units bits).tdiv unitsInOne)
  infinite : exponentOf bits = 2047 → fractionOf bits = 0 →
    value = if isNegative bits then Int64.minValue else Int64.maxValue
  undefined : exponentOf bits = 2047 → fractionOf bits ≠ 0 → value = 0

section Magnitudes

/-- Of the multiples of a power of two, the rounded one is nearest. -/
theorem shiftRounded_nearest (n shift other : Nat) :
    Nat.dist (shiftRounded n shift * 2 ^ shift) n ≤ Nat.dist (other * 2 ^ shift) n ∧
      (Nat.dist (other * 2 ^ shift) n = Nat.dist (shiftRounded n shift * 2 ^ shift) n →
        other = shiftRounded n shift ∨ shiftRounded n shift % 2 = 0) := by
  have positive : 0 < 2 ^ shift := Nat.two_pow_pos shift
  have whole := Nat.div_add_mod n (2 ^ shift)
  have part := Nat.mod_lt n positive
  rw [Nat.mul_comm] at whole
  simp only [shiftRounded, Nat.one_shiftLeft]
  generalize 2 ^ shift = unit at *
  generalize n / unit = quotient at *
  generalize n % unit = remainder at *
  have next : (quotient + 1) * unit = quotient * unit + unit := Nat.succ_mul quotient unit
  -- only the quotient and the number after it can be nearest
  rcases Nat.lt_trichotomy other quotient with below | rfl | above
  · have lower : (other + 1) * unit ≤ quotient * unit := Nat.mul_le_mul_right _ below
    rw [Nat.succ_mul] at lower
    simp only [Nat.dist]
    split <;> omega
  · simp only [Nat.dist]
    split <;> omega
  · rcases Nat.eq_or_lt_of_le (Nat.succ_le_of_lt above) with rfl | beyond
    · rw [Nat.succ_eq_add_one]
      simp only [Nat.dist]
      split <;> omega
    · have upper : (quotient + 1 + 1) * unit ≤ other * unit := Nat.mul_le_mul_right _ beyond
      rw [Nat.succ_mul] at upper
      simp only [Nat.dist]
      split <;> omega

/-- From a power of two on, numbers are multiples of what their last bit is worth there. -/
theorem below_or_on_grid (bits shift : Nat) :
    magnitudeUnits bits < 2 ^ 52 * 2 ^ shift * unitsInOne ∨
      ∃ place, magnitudeUnits bits = place * 2 ^ shift * unitsInOne := by
  have unit : leadingBit = 2 ^ 52 := by decide
  have proper := fractionOf_lt bits
  have scale : 2 ^ shift * unitsInOne = 2 ^ (shift + leastPlace) := by
    rw [unitsInOne, Nat.pow_add]
  rw [Nat.mul_assoc, scale, magnitudeUnits]
  split
  · left
    calc fractionOf bits < 2 ^ 52 * 1 := by omega
      _ ≤ 2 ^ 52 * 2 ^ (shift + leastPlace) := Nat.mul_le_mul_left _ (Nat.two_pow_pos _)
  · by_cases large : shift + leastPlace ≤ exponentOf bits - 1
    · right
      refine ⟨(leadingBit + fractionOf bits) * 2 ^ (exponentOf bits - 1 - (shift + leastPlace)), ?_⟩
      rw [Nat.mul_assoc _ (2 ^ shift), scale, Nat.mul_assoc, ← Nat.pow_add,
        Nat.sub_add_cancel large]
    · left
      calc (leadingBit + fractionOf bits) * 2 ^ (exponentOf bits - 1)
          < 2 ^ 53 * 2 ^ (exponentOf bits - 1) :=
            Nat.mul_lt_mul_of_pos_right (by omega) (Nat.two_pow_pos _)
        _ = 2 ^ 52 * 2 ^ exponentOf bits := by
            rw [← Nat.pow_add, ← Nat.pow_add,
              show 53 + (exponentOf bits - 1) = 52 + exponentOf bits by omega]
        _ ≤ 2 ^ 52 * 2 ^ (shift + leastPlace) :=
            Nat.mul_le_mul_left _ (Nat.pow_le_pow_right (by decide) (by omega))

theorem roundedMagnitude_nearest (n bits : Nat) :
    Nat.dist (roundedMagnitude n * unitsInOne) (n * unitsInOne) ≤
        Nat.dist (magnitudeUnits bits) (n * unitsInOne) ∧
      (Nat.dist (magnitudeUnits bits) (n * unitsInOne) =
          Nat.dist (roundedMagnitude n * unitsInOne) (n * unitsInOne) →
        magnitudeUnits bits = roundedMagnitude n * unitsInOne ∨
          52 < n.log2 ∧ fractionDigits n % 2 = 0) := by
  by_cases few : n.log2 ≤ 52
  · rw [roundedMagnitude, if_pos few, Nat.dist_self]
    exact ⟨Nat.zero_le _, fun same => .inl (Nat.eq_of_dist_eq_zero same)⟩
  · have nearest := shiftRounded_nearest n (n.log2 - 52)
    rw [roundedMagnitude, if_neg few, fractionDigits, if_neg few]
    rcases below_or_on_grid bits (n.log2 - 52) with below | ⟨place, onGrid⟩
    · -- the power of two below the integer is nearer already
      have lower : 2 ^ 52 * 2 ^ (n.log2 - 52) ≤ n := by
        rw [← Nat.pow_add, show 52 + (n.log2 - 52) = n.log2 by omega]
        exact Nat.log2_self_le (by rintro rfl; exact few (by decide))
      have farther : Nat.dist (2 ^ 52 * 2 ^ (n.log2 - 52) * unitsInOne) (n * unitsInOne) <
          Nat.dist (magnitudeUnits bits) (n * unitsInOne) := by
        have above := Nat.mul_le_mul_right unitsInOne lower
        simp only [Nat.dist]
        omega
      have closer := Nat.mul_le_mul_right unitsInOne (nearest (2 ^ 52)).1
      rw [← Nat.dist_mul_right, ← Nat.dist_mul_right] at closer
      exact ⟨by omega, fun same => by omega⟩
    · obtain ⟨closest, tie⟩ := nearest place
      rw [onGrid, Nat.dist_mul_right, Nat.dist_mul_right]
      refine ⟨Nat.mul_le_mul_right _ closest, fun same => ?_⟩
      rcases tie (Nat.eq_of_mul_eq_mul_right unitsInOne_pos same) with rfl | even
      · exact .inl rfl
      · exact .inr ⟨by omega, even⟩

end Magnitudes

section Signs

variable {value : Int} {bits other : Nat}

theorem dist_le_distance (value : Int) (bits : Nat) :
    Nat.dist (magnitudeUnits bits) (value.natAbs * unitsInOne) ≤ distance value bits := by
  have magnitude := natAbs_units bits
  have scaled : (value * unitsInOne).natAbs = value.natAbs * unitsInOne := by
    rw [Int.natAbs_mul, Int.natAbs_natCast]
  rw [distance, Nat.dist, ← scaled]
  generalize value * unitsInOne = target
  omega

theorem distance_of_sign (sign : isNegative bits = decide (value < 0)) :
    distance value bits = Nat.dist (magnitudeUnits bits) (value.natAbs * unitsInOne) := by
  rw [distance, Nat.dist, units, sign]
  by_cases negative : value < 0
  · have target : value * unitsInOne = -((value.natAbs * unitsInOne : Nat) : Int) := by
      rw [Int.natCast_mul, ← Int.neg_mul, Int.ofNat_natAbs_of_nonpos (Int.le_of_lt negative),
        Int.neg_neg]
    rw [if_pos (decide_eq_true negative), target]
    omega
  · have target : value * unitsInOne = ((value.natAbs * unitsInOne : Nat) : Int) := by
      rw [Int.natCast_mul, Int.natAbs_of_nonneg (Int.not_lt.mp negative)]
    rw [if_neg (by simpa using negative), target]
    omega

/-- The negative of a written number is farther away. -/
theorem distance_ne_of_neg (flipped : units other = -units (ofInt value))
    (apart : units other ≠ units (ofInt value))
    (sign : isNegative (ofInt value) = decide (value < 0)) :
    distance value other ≠ distance value (ofInt value) := by
  have positive : (0 : Int) < unitsInOne := Int.natCast_pos.mpr unitsInOne_pos
  have nonzero : value ≠ 0 := by
    rintro rfl
    exact apart (by rw [flipped]; decide)
  rw [distance, distance, flipped]
  rw [flipped] at apart
  by_cases negative : value < 0
  · have target : value * unitsInOne < 0 := Int.mul_neg_of_neg_of_pos negative positive
    have own : units (ofInt value) ≤ 0 := by
      rw [units, sign, if_pos (decide_eq_true negative)]
      omega
    omega
  · have target : 0 < value * unitsInOne := Int.mul_pos (by omega) positive
    have own : 0 ≤ units (ofInt value) := by
      rw [units, sign, if_neg (by simpa using negative)]
      omega
    omega

theorem even_ofInt (nonzero : value ≠ 0) (even : fractionDigits value.natAbs % 2 = 0) :
    ofInt value % 2 = 0 := by
  have unit : leadingBit = 4503599627370496 := by decide
  have sign : signBit = 9223372036854775808 := by decide
  rw [ofInt, magnitudeBits_eq (by omega), unit, sign]
  split <;> omega

theorem roundsToEven_ofInt (bound : value.natAbs ≤ 2 ^ 63) : RoundsToEven value (ofInt value) := by
  obtain ⟨finite, magnitude, sign⟩ := units_ofInt bound
  have own := distance_of_sign sign
  rw [magnitude] at own
  constructor
  · exact finite
  · intro other _
    rw [own]
    exact Nat.le_trans (roundedMagnitude_nearest _ other).1 (dist_le_distance value other)
  · intro other _ apart same
    obtain ⟨least, tie⟩ := roundedMagnitude_nearest value.natAbs other
    have lower := dist_le_distance value other
    rcases tie (by omega) with equal | ⟨many, even⟩
    · have first := natAbs_units other
      have second := natAbs_units (ofInt value)
      exact absurd same (distance_ne_of_neg (by omega) apart sign)
    · apply even_ofInt _ even
      rintro rfl
      exact absurd many (by decide)

/-- Nearest numbers keep the order of what they are nearest to. -/
theorem RoundsToEven.le {low high : Int} {first second : Nat} (order : low < high)
    (rounded : RoundsToEven low first) (other : RoundsToEven high second) :
    units first ≤ units second := by
  have scaled : low * unitsInOne < high * unitsInOne :=
    Int.mul_lt_mul_of_pos_right order (Int.natCast_pos.mpr unitsInOne_pos)
  have closer := rounded.nearest second other.finite
  have closest := other.nearest first rounded.finite
  simp only [distance] at closer closest
  omega

end Signs

theorem truncatesTo_toInt64 (bits : Nat) : TruncatesTo bits (toInt64 bits) := by
  constructor
  · intro finite
    rw [toInt_toInt64, toInt_of_finite finite]
  · intro top none
    rw [toInt64, toInt_eq, if_neg (fun undefined => undefined.2 none), if_pos (by omega)]
    split <;> rfl
  · intro top some
    rw [toInt64, toInt_eq, if_pos ⟨top, some⟩]
    rfl

/-- Integers that are written and read keep their order. -/
theorem toInt_ofInt_mono {low high : Int} (order : low ≤ high) (lower : low.natAbs ≤ 2 ^ 63)
    (upper : high.natAbs ≤ 2 ^ 63) : toInt (ofInt low) ≤ toInt (ofInt high) := by
  rcases Int.lt_or_eq_of_le order with apart | rfl
  · have first := roundsToEven_ofInt lower
    have second := roundsToEven_ofInt upper
    rw [toInt_of_finite first.finite, toInt_of_finite second.finite]
    apply saturated_mono
    exact Int.tdiv_le_tdiv (Int.natCast_pos.mpr unitsInOne_pos) (first.le apart second)
  · exact Int.le_refl _

end EntitySchema.Binary64

namespace EntitySchema.Compact

open Binary64

/-- A map bound as it stands in the head of an encoding. -/
def boundBytes (bound : Int64) : List UInt8 := bigEndian 8 (ofInt64 bound)

def readBound : Decoder Int64 := (fun bits => toInt64 bits.toNat) <$> Reader.u64

theorem headerBytes_eq (db : Database) :
    headerBytes db = magic ++ [version] ++ boundBytes db.mapMin ++ boundBytes db.mapMax ++
      bigEndian 4 db.size := rfl

/-- What a map bound is read back as. -/
def keptBound (bound : Int64) : Int64 := toInt64 (ofInt64 bound)

theorem reads_boundBytes (bound : Int64) :
    Reads readBound (boundBytes bound) (keptBound bound) := by
  have narrow : (ofInt64 bound).toUInt64.toNat = ofInt64 bound :=
    UInt64.toNat_ofNat_of_lt (ofInt64_lt bound)
  have read := (reads_u64 (ofInt64 bound)).map (f := fun bits => toInt64 bits.toNat)
  rw [narrow] at read
  exact read

theorem keptBound_mono {low high : Int64} (order : low ≤ high) :
    keptBound low ≤ keptBound high := by
  rw [Int64.le_iff_toInt_le] at order ⊢
  rw [keptBound, keptBound, toInt_toInt64, toInt_toInt64]
  exact toInt_ofInt_mono order (natAbs_toInt_le low) (natAbs_toInt_le high)

/-- Eight bytes of any kind are read as a bound that is kept from then on. -/
theorem reads_any_bound {bytes : List UInt8} (eight : bytes.length = 8) :
    ∃ bound, Reads readBound bytes bound ∧ keptBound bound = bound := by
  have taken : Reads (Reader.take 8) bytes bytes := eight ▸ reads_take bytes
  refine ⟨_, (taken.map.map.map : Reads readBound bytes _), ?_⟩
  exact toInt64_ofInt64_toInt64 _

/-- Map bounds are written as the nearest numbers and read by cutting these off. Bounds of up to
53 binary digits come back as they were, others keep their order, and what has come back once
does so ever after, also where it comes from bytes that no bound is written as. -/
theorem bounds_settle (low high : Int64) :
    RoundsToEven low.toInt (ofInt64 low) ∧
      (∀ bits : UInt64, TruncatesTo bits.toNat (toInt64 bits.toNat)) ∧
      Reads readBound (boundBytes low) (keptBound low) ∧
      (low.toInt.natAbs ≤ 2 ^ 53 → keptBound low = low) ∧
      Reads readBound (boundBytes (keptBound low)) (keptBound low) ∧
      (low ≤ high → keptBound low ≤ keptBound high) ∧
      ∀ bytes : List UInt8, bytes.length = 8 →
        ∃ bound, Reads readBound bytes bound ∧ Reads readBound (boundBytes bound) bound := by
  have again : ∀ bound, keptBound bound = bound → Reads readBound (boundBytes bound) bound := by
    intro bound same
    have read := reads_boundBytes bound
    rwa [same] at read
  refine ⟨roundsToEven_ofInt (natAbs_toInt_le low), fun bits => truncatesTo_toInt64 bits.toNat,
    reads_boundBytes low, toInt64_ofInt64, ?_, keptBound_mono, ?_⟩
  · exact again _ (toInt64_ofInt64_toInt64 _)
  · intro bytes eight
    obtain ⟨bound, read, same⟩ := reads_any_bound eight
    exact ⟨bound, read, again bound same⟩

/-- The first odd number with 54 binary digits is read back as the even one below it. -/
theorem bounds_settle_odd :
    keptBound 9007199254740992 = 9007199254740992 ∧
      keptBound 9007199254740993 = 9007199254740992 ∧
      keptBound 9007199254740992 ≤ keptBound 9007199254740993 := by
  obtain ⟨-, -, -, few, -, order, -⟩ := bounds_settle 9007199254740992 9007199254740993
  exact ⟨few (by decide), by decide, order (by decide)⟩

end EntitySchema.Compact
