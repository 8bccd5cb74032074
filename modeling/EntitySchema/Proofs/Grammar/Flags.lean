import EntitySchema.Grammar.ValueList
import EntitySchema.Proofs.Numerals
import Mathlib.Algebra.Group.Nat.Defs

/-! What the entries of a list of flags say. The value is a numeral, of any length, or not;
if it is one, it denotes a bit, a number between the bits, or a number beyond the last bit.
The text after the label turns the bit on unless it is blank or a zero. -/
namespace EntitySchema

variable {n : Nat} {bit : FlagBit}

namespace FlagBit

theorem value_eq (small : bit.power ≤ 127) : bit.value = 2 ^ bit.power.toNat := by
  have few : bit.power.toNat < width := Nat.lt_succ_of_le (UInt8.le_iff_toNat_le.mp small)
  rw [value, Nat.mod_eq_of_lt few, Nat.one_shiftLeft]

/-- A bit is found from its value and from no other number. -/
theorem ofValue?_eq_some_iff :
    ofValue? n = some bit ↔ bit.power ≤ 127 ∧ n = 2 ^ bit.power.toNat := by
  rw [ofValue?, Nat.one_shiftLeft]
  constructor
  · intro found
    split at found
    · rename_i single
      have whole : n.log2.toUInt8.toNat = n.log2 :=
        UInt8.toNat_ofNat_of_lt (Nat.lt_trans single.2 (by decide))
      cases found
      rw [UInt8.le_iff_toNat_le, whole]
      exact ⟨Nat.le_of_lt_succ single.2, single.1⟩
    · cases found
  · rintro ⟨small, rfl⟩
    have few : bit.power.toNat < width := Nat.lt_succ_of_le (UInt8.le_iff_toNat_le.mp small)
    rw [Nat.log2_two_pow, if_pos ⟨rfl, few⟩]
    simp

theorem ofValue?_eq_none_iff (below : n < 2 ^ width) :
    ofValue? n = none ↔ ∀ power, n ≠ 2 ^ power := by
  rw [Option.eq_none_iff_forall_ne_some]
  constructor
  · rintro none power rfl
    have few : power < width := (Nat.pow_lt_pow_iff_right (by decide)).mp below
    have small : power.toUInt8.toNat = power :=
      UInt8.toNat_ofNat_of_lt (Nat.lt_trans few (by decide))
    refine none ⟨power.toUInt8⟩ (ofValue?_eq_some_iff.mpr ⟨?_, by rw [small]⟩)
    rw [UInt8.le_iff_toNat_le, small]
    exact Nat.le_of_lt_succ few
  · intro apart bit found
    exact apart _ (ofValue?_eq_some_iff.mp found).2

end FlagBit

theorem log2_lt_width_iff : n.log2 < FlagBit.width ↔ n < 2 ^ FlagBit.width := by
  by_cases zero : n = 0
  · subst zero
    decide
  · exact Nat.log2_lt zero

namespace Grammar

open Text

variable {value classname : String}

/-- A numeral without a minus sign is judged by the number that it denotes. -/
theorem flagBit_of_unsigned (numeral : Unsigned (trimmed value).toList n) :
    flagBit value classname =
      if n < 2 ^ FlagBit.width then
        (FlagBit.ofValue? n).elim (.error (.flagNotPowerOfTwo (trimmed value) classname)) .ok
      else .error (.flagOutOfRange (trimmed value) classname) := by
  unfold flagBit
  dsimp only
  split
  · rename_i digits negative
    rw [negative] at numeral
    exact (not_unsigned_negative numeral).elim
  · rw [natural?_eq_some_iff.mpr numeral]
    simp only [log2_lt_width_iff]
    cases FlagBit.ofValue? n <;> rfl

theorem flagBit_of_bit (small : bit.power ≤ 127)
    (numeral : Unsigned (trimmed value).toList (2 ^ bit.power.toNat)) :
    flagBit value classname = .ok bit := by
  have below : 2 ^ bit.power.toNat < 2 ^ FlagBit.width :=
    Nat.pow_lt_pow_right (by decide) (Nat.lt_succ_of_le (UInt8.le_iff_toNat_le.mp small))
  rw [flagBit_of_unsigned numeral, if_pos below, FlagBit.ofValue?_eq_some_iff.mpr ⟨small, rfl⟩]
  rfl

theorem flagBit_of_between (numeral : Unsigned (trimmed value).toList n)
    (below : n < 2 ^ FlagBit.width) (apart : ∀ power, n ≠ 2 ^ power) :
    flagBit value classname = .error (.flagNotPowerOfTwo (trimmed value) classname) := by
  rw [flagBit_of_unsigned numeral, if_pos below, (FlagBit.ofValue?_eq_none_iff below).mpr apart]
  rfl

theorem flagBit_of_beyond (numeral : Unsigned (trimmed value).toList n)
    (beyond : 2 ^ FlagBit.width ≤ n) :
    flagBit value classname = .error (.flagOutOfRange (trimmed value) classname) := by
  rw [flagBit_of_unsigned numeral, if_neg (Nat.not_lt.mpr beyond)]

theorem flagBit_of_negative {digits : List Char} (negative : (trimmed value).toList = '-' :: digits)
    (decimal : Decimal digits n) :
    flagBit value classname = .error (.flagNotPowerOfTwo (trimmed value) classname) := by
  simp [flagBit, negative, digits?_eq_some_iff.mpr decimal]

theorem flagBit_of_no_numeral (other : ∀ k, ¬ Signed (trimmed value).toList k) :
    flagBit value classname = .error (.flagNotInteger (trimmed value) classname) := by
  unfold flagBit
  dsimp only
  split
  · rename_i digits negative
    rw [negative] at other
    have none : digits? digits = none := by
      rw [Option.eq_none_iff_forall_ne_some]
      exact fun n denoted => other _ (.negative (digits?_eq_some_iff.mp denoted))
    rw [none]
    rfl
  · split
    · rename_i n denoted
      exact (other n (.unsigned (natural?_eq_some_iff.mp denoted))).elim
    · rfl

/-- What the value of a flag says: numerals for the value of a bit, those between these
values and negative ones, those beyond the last bit, and all other texts. -/
inductive Judged (text classname : String) : Except SemanticProblem FlagBit → Prop
  | bit {bit : FlagBit} : bit.power ≤ 127 → Unsigned text.toList (2 ^ bit.power.toNat) →
      Judged text classname (.ok bit)
  | between {n : Nat} : Unsigned text.toList n → n < 2 ^ 128 → (∀ power, n ≠ 2 ^ power) →
      Judged text classname (.error (.flagNotPowerOfTwo text classname))
  | negative {digits : List Char} {n : Nat} : text.toList = '-' :: digits → Decimal digits n →
      Judged text classname (.error (.flagNotPowerOfTwo text classname))
  | beyond {n : Nat} : Unsigned text.toList n → 2 ^ 128 ≤ n →
      Judged text classname (.error (.flagOutOfRange text classname))
  | other : (∀ k, ¬ Signed text.toList k) →
      Judged text classname (.error (.flagNotInteger text classname))

theorem exists_judged (text classname : String) : ∃ outcome, Judged text classname outcome := by
  by_cases numeral : ∃ k, Signed text.toList k
  · obtain ⟨k, signed⟩ := numeral
    generalize same : text.toList = chars at signed
    cases signed with
    | negative decimal => exact ⟨_, .negative same decimal⟩
    | @unsigned _ n unsigned =>
      rw [← same] at unsigned
      by_cases below : n < 2 ^ 128
      · cases found : FlagBit.ofValue? n with
        | some bit =>
          obtain ⟨small, value⟩ := FlagBit.ofValue?_eq_some_iff.mp found
          exact ⟨_, .bit small (value ▸ unsigned)⟩
        | none => exact ⟨_, .between unsigned below ((FlagBit.ofValue?_eq_none_iff below).mp found)⟩
      · exact ⟨_, .beyond unsigned (Nat.not_lt.mp below)⟩
  · exact ⟨_, .other fun k signed => numeral ⟨k, signed⟩⟩

theorem Judged.eq {outcome : Except SemanticProblem FlagBit}
    (judged : Judged (trimmed value) classname outcome) : flagBit value classname = outcome := by
  cases judged with
  | bit small numeral => exact flagBit_of_bit small numeral
  | between numeral below apart => exact flagBit_of_between numeral below apart
  | negative negative decimal => exact flagBit_of_negative negative decimal
  | beyond numeral beyond => exact flagBit_of_beyond numeral beyond
  | other other => exact flagBit_of_no_numeral other

theorem flagBit_eq_iff {outcome : Except SemanticProblem FlagBit} :
    flagBit value classname = outcome ↔ Judged (trimmed value) classname outcome := by
  refine ⟨?_, Judged.eq⟩
  rintro rfl
  obtain ⟨outcome, judged⟩ := exists_judged (trimmed value) classname
  rwa [judged.eq]

/-- A text that denotes a bit denotes the value of that bit, and no other number. -/
theorem unsigned_iff_of_flagBit (denoted : flagBit value classname = .ok bit) :
    Unsigned (trimmed value).toList n ↔ n = bit.value := by
  cases flagBit_eq_iff.mp denoted with
  | bit small numeral =>
    rw [FlagBit.value_eq small]
    constructor
    · exact fun other => other.unique numeral
    · rintro rfl
      exact numeral

/-- A flag is off initially if nothing is said or a zero, of any length and with any sign. -/
theorem initiallySet_eq_false_iff {text : String} :
    initiallySet text = false ↔ trimmed text = "" ∨ Signed (trimmed text).toList 0 := by
  have zero : int64? (trim text.toList) = some 0 ↔ Signed (trim text.toList) 0 :=
    int64?_eq_some_iff
  rw [trimmed, String.toList_ofList, ← zero, ← String.toList_inj, String.toList_ofList]
  unfold initiallySet
  split
  · rename_i v denoted
    have numeral : trim text.toList ≠ [] := by
      intro empty
      rw [empty] at denoted
      cases denoted
    simp [denoted, numeral]
  · rename_i none
    simp [none]

/-- The value of a flag is judged as the numeral that it is, if it is one: it denotes a bit
exactly if it denotes the value of that bit, and of the faults each is reported for its own
texts. What a flag is initially is read from any text. -/
theorem flags_judged (value classname initial : String) :
    (∀ outcome, flagBit value classname = outcome ↔ Judged (trimmed value) classname outcome) ∧
      (∀ bit, flagBit value classname = .ok bit →
        ∀ n, Unsigned (trimmed value).toList n ↔ n = bit.value) ∧
      (initiallySet initial = false ↔
        trimmed initial = "" ∨ Signed (trimmed initial).toList 0) :=
  ⟨fun _ => flagBit_eq_iff, fun _ denoted _ => unsigned_iff_of_flagBit denoted,
    initiallySet_eq_false_iff⟩

example : flagBit " +0016 " "Lamp" = .ok ⟨4⟩ := rfl

end Grammar
end EntitySchema
