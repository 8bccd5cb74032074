import EntitySchema.Proofs.Loading.Inlining
import EntitySchema.Proofs.Loading.Overlaying

/-! One source text written behind another. Where the first one comes to its end by itself, a line
break separates the two: whatever is open there, a word or a comment, ends with it, and nothing
else is carried over than the database. -/
namespace EntitySchema

namespace Source

open TokenStream (ahead)

section

variable {text word more behind : List Char} {comment : Bool} {spelling : Spelling}
  {spellings : List Spelling}

end

section

variable {options : LoadOptions} {includeFile : String → Loading Unit} {db after : Database}

end

/-- Further down by a number of lines, in the same column. -/
def Lower (lines : Nat) (place other : Place) : Prop :=
  other = (place.1 + lines, place.2)

theorem Lower.after {lines : Nat} {mark other : Mark} (lower : Lower lines mark.place other.place)
    (text : List Char) : Lower lines (mark.after text).place (other.after text).place := by
  induction text generalizing mark other with
  | nil => exact lower
  | cons c text ih =>
    refine ih ?_
    obtain ⟨line, column⟩ := Prod.mk.inj lower
    change other.line = mark.line + lines at line
    change other.column = mark.column at column
    simp only [Lower, Mark.place, Mark.step]
    split
    · simp [line, Nat.add_right_comm]
    · simp [line, column]

namespace Unfinished

/-- A directive, and a comment that goes on to the end of the text. -/
def first : String := "@mapsize(-8, 8)// \"("

/-- A block that is not closed. -/
def last : String := "@pointclass=A["

def middle : Database := ⟨∅, -8, 8, []⟩

end Unfinished

end Source
end EntitySchema
