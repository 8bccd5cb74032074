import EntitySchema.Text.Numeral
import Mathlib.Data.Nat.Digits.Defs

/-! Numerals and what they denote. The readers of numerals accept a text exactly if it is
one, and answer with its value; a reader with a bound refuses those beyond it. -/
namespace EntitySchema.Text

variable {text digits : List Char} {n : Nat} {k : Int}

/-- A nonempty run of decimal digits that denotes a number, its last digit the ones. -/
structure Decimal (text : List Char) (n : Nat) : Prop where
  nonempty : text ≠ []
  digits : ∀ c ∈ text, c.isDigit = true
  value : Nat.ofDigits 10 (text.reverse.map digitValue) = n

/-- A run of digits, which may stand behind a plus sign. -/
def Unsigned (text : List Char) (n : Nat) : Prop :=
  Decimal text n ∨ ∃ digits, text = '+' :: digits ∧ Decimal digits n

/-- A run of digits, which may stand behind a sign. -/
inductive Signed : List Char → Int → Prop
  | unsigned {text : List Char} {n : Nat} : Unsigned text n → Signed text n
  | negative {digits : List Char} {n : Nat} : Decimal digits n → Signed ('-' :: digits) (-n)

theorem ofDigits_reverse (text : List Char) :
    Nat.ofDigits 10 (text.reverse.map digitValue) =
      text.foldl (fun value c => value * 10 + digitValue c) 0 := by
  rw [Nat.ofDigits_eq_foldr, List.foldr_map, List.foldr_reverse]
  congr 1
  funext value c
  simp only [Nat.cast_id]
  omega

theorem digits?_eq_some_iff : digits? text = some n ↔ Decimal text n := by
  rw [digits?]
  split
  · rename_i numeral
    rw [Option.some.injEq, ← ofDigits_reverse]
    exact ⟨fun value => ⟨numeral.1, List.all_eq_true.mp numeral.2, value⟩, Decimal.value⟩
  · rename_i other
    refine ⟨nofun, fun decimal => (other ⟨decimal.nonempty, ?_⟩).elim⟩
    exact List.all_eq_true.mpr decimal.digits

theorem decimal_toDigits (n : Nat) : Decimal (Nat.toDigits 10 n) n where
  nonempty := Nat.toDigits_ne_nil
  digits _ member := Nat.isDigit_of_mem_toDigits (by decide) (by decide) member
  value := by
    have read := Nat.ofDigitChars_toDigits (n := n) (by decide : 1 < 10) (by decide)
    rw [Nat.ofDigitChars_eq_foldl] at read
    rw [ofDigits_reverse]
    simpa only [digitValue, Nat.mul_comm] using read

/-- Signs are no digits. -/
theorem Decimal.head_ne {c : Char} (decimal : Decimal (c :: digits) n) : c ≠ '+' ∧ c ≠ '-' := by
  have digit := decimal.digits c List.mem_cons_self
  constructor <;> rintro rfl <;> cases digit

theorem unsigned_cons_iff : Unsigned ('+' :: digits) n ↔ Decimal digits n := by
  constructor
  · rintro (bare | ⟨_, same, decimal⟩)
    · exact absurd rfl bare.head_ne.1
    · cases same
      exact decimal
  · exact fun decimal => .inr ⟨_, rfl, decimal⟩

theorem natural?_eq_some_iff : natural? text = some n ↔ Unsigned text n := by
  unfold natural?
  split
  · rw [digits?_eq_some_iff, unsigned_cons_iff]
  · rename_i bare
    rw [digits?_eq_some_iff, Unsigned, or_iff_left]
    rintro ⟨digits, same, -⟩
    exact bare digits same

theorem Unsigned.unique {m : Nat} (first : Unsigned text n) (second : Unsigned text m) : n = m :=
  Option.some.inj ((natural?_eq_some_iff.mpr first).symm.trans (natural?_eq_some_iff.mpr second))

theorem not_unsigned_negative : ¬ Unsigned ('-' :: digits) n := by
  rintro (bare | ⟨_, same, -⟩)
  · exact absurd rfl bare.head_ne.2
  · cases same

theorem signed_negative_iff : Signed ('-' :: digits) k ↔ ∃ n : Nat, Decimal digits n ∧ k = -n := by
  constructor
  · rintro (unsigned | decimal)
    · exact (not_unsigned_negative unsigned).elim
    · exact ⟨_, decimal, rfl⟩
  · rintro ⟨n, decimal, rfl⟩
    exact .negative decimal

theorem integer?_eq_some_iff : integer? text = some k ↔ Signed text k := by
  unfold integer?
  split
  · rename_i digits
    simp only [signed_negative_iff, ← digits?_eq_some_iff]
    cases digits? digits <;> simp [eq_comm]
  · rename_i plain
    rw [Option.map_eq_some_iff]
    constructor
    · rintro ⟨n, natural, rfl⟩
      exact .unsigned (natural?_eq_some_iff.mp natural)
    · rintro (unsigned | decimal)
      · exact ⟨_, natural?_eq_some_iff.mpr unsigned, rfl⟩
      · exact (plain _ rfl).elim

/-- A numeral of 64 bits is one whose value is that of a signed number of 64 bits. -/
theorem int64?_eq_some_iff {v : Int64} : int64? text = some v ↔ Signed text v.toInt := by
  unfold int64?
  rw [← integer?_eq_some_iff]
  split
  · rename_i n denoted
    rw [denoted, Option.some.injEq]
    split
    · rename_i bounds
      rw [Option.some.injEq]
      constructor
      · rintro rfl
        exact (Int64.toInt_ofInt_of_le bounds.1 (Int.lt_add_one_of_le bounds.2)).symm
      · rintro rfl
        exact Int64.ofInt_toInt v
    · rename_i beyond
      refine ⟨nofun, ?_⟩
      rintro rfl
      exact (beyond ⟨Int64.minValue_le_toInt v, Int64.toInt_le v⟩).elim
  · rename_i none
    rw [none]
    simp

end EntitySchema.Text
