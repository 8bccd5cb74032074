import EntitySchema.Text.Lowercase
import EntitySchema.Text.Visible.Table

/-! Quoting a text so that every character of it can be seen. Quotes, backslashes and
the usual controls are escaped by a letter, other characters that show nothing of
their own by their number. -/
namespace EntitySchema.Text

def isHidden (c : Char) : Bool := inRanges hiddenRanges c

/-- How a character is written between quotes. -/
def visibleChar (c : Char) : List Char :=
  match c with
  | '\x00' => ['\\', '0']
  | '\t' => ['\\', 't']
  | '\r' => ['\\', 'r']
  | '\n' => ['\\', 'n']
  | '\\' => ['\\', '\\']
  | '"' => ['\\', '"']
  | c => if isHidden c then "\\u\x7b".toList ++ Nat.toDigits 16 c.toNat ++ "\x7d".toList else [c]

/-- The quoted form of a text. -/
def visible (text : List Char) : List Char := '"' :: text.flatMap visibleChar ++ ['"']

end EntitySchema.Text

namespace EntitySchema

def visibly (text : String) : String := String.ofList (Text.visible text.toList)

end EntitySchema
