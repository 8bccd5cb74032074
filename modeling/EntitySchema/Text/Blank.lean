/-! Blank characters are those with the Unicode property White_Space. Trimming
removes them at both ends of a text, and words are the maximal runs without them. -/
namespace EntitySchema.Text

/-- The characters with the property White_Space. -/
def isBlank (c : Char) : Bool :=
  let n := c.toNat
  (9 ≤ n && n ≤ 13) || n == 0x20 || n == 0x85 || n == 0xa0 || n == 0x1680 ||
    (0x2000 ≤ n && n ≤ 0x200a) || n == 0x2028 || n == 0x2029 || n == 0x202f || n == 0x205f ||
    n == 0x3000

theorem isBlank_of_isWhitespace {c : Char} (h : c.isWhitespace = true) : isBlank c = true := by
  have : c = ' ' ∨ c = '\t' ∨ c = '\r' ∨ c = '\n' := by simpa [Char.isWhitespace, or_assoc] using h
  rcases this with rfl | rfl | rfl | rfl <;> decide

def trimStart (text : List Char) : List Char := text.dropWhile isBlank

def trimEnd (text : List Char) : List Char := (trimStart text.reverse).reverse

def trim (text : List Char) : List Char := trimEnd (trimStart text)

/-- Words are collected in reverse; `current` holds the word being read, reversed. -/
def wordsFrom (current : List Char) (found : List (List Char)) : List Char → List (List Char)
  | [] => (if current.isEmpty then found else current.reverse :: found).reverse
  | c :: rest =>
    if isBlank c then
      wordsFrom [] (if current.isEmpty then found else current.reverse :: found) rest
    else wordsFrom (c :: current) found rest

/-- The maximal blank-free runs of a text, in order. -/
def words (text : List Char) : List (List Char) := wordsFrom [] [] text

end EntitySchema.Text

namespace EntitySchema

/-- A text without the blanks at its ends. -/
def trimmed (text : String) : String := String.ofList (Text.trim text.toList)

def trimmedEnd (text : String) : String := String.ofList (Text.trimEnd text.toList)

end EntitySchema
