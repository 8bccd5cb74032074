/-! Decimal numerals: ASCII digits, with an optional sign where one is allowed. -/
namespace EntitySchema.Text

def digitValue (c : Char) : Nat := c.toNat - '0'.toNat

/-- The value of a nonempty run of digits. -/
def digits? (text : List Char) : Option Nat :=
  if text ≠ [] ∧ text.all Char.isDigit then
    some (text.foldl (fun value c => value * 10 + digitValue c) 0)
  else none

/-- A numeral with an optional plus sign. -/
def natural? : List Char → Option Nat
  | '+' :: text => digits? text
  | text => digits? text

/-- A numeral with an optional plus or minus sign. -/
def integer? : List Char → Option Int
  | '-' :: text => (digits? text).map fun n => -(n : Int)
  | text => (natural? text).map Int.ofNat

/-- A signed numeral whose value fits 64 bits. -/
def int64? (text : List Char) : Option Int64 :=
  match integer? text with
  | some n =>
    if Int64.minValue.toInt ≤ n ∧ n ≤ Int64.maxValue.toInt then some (.ofInt n) else none
  | none => none

end EntitySchema.Text
