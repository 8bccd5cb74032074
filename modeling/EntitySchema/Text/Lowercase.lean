import EntitySchema.Text.Lowercase.Table

/-! Full lowercase mapping of texts. It works character by character, except for
capital sigma, whose form depends on its neighbours: at the end of a word it
becomes final sigma. Names are looked up by their lowercase form. -/
namespace EntitySchema.Text

def inRanges (ranges : List (Nat × Nat)) (c : Char) : Bool :=
  ranges.any fun range => range.1 ≤ c.toNat && c.toNat ≤ range.2

def isCased (c : Char) : Bool := inRanges casedRanges c

def isCaseIgnorable (c : Char) : Bool := inRanges caseIgnorableRanges c

def CaseRange.contains (range : CaseRange) (n : Nat) : Bool :=
  range.first ≤ n && n ≤ range.last && (n - range.first) % range.step == 0

/-- The lowercase form of one character, regardless of its neighbours. -/
def lowercaseChar (c : Char) : List Char :=
  if c.toNat < 0x80 then [c.toLower]
  else if c = 'İ' then ['i', '\u0307']
  else match lowercaseRanges.find? (·.contains c.toNat) with
    | some range => [Char.ofNat (range.image + (c.toNat - range.first))]
    | none => [c]

/-- Whether the nearest character that is not case-ignorable is a cased one. -/
def meetsCased (text : List Char) : Bool :=
  match text.dropWhile isCaseIgnorable with
  | c :: _ => isCased c
  | [] => false

/-- The form of a character between the text `before` it, nearest first, and the
text `after` it. -/
def lowercaseBetween (before : List Char) (c : Char) (after : List Char) : List Char :=
  if c = 'Σ' then
    if meetsCased before && !meetsCased after then ['ς'] else ['σ']
  else lowercaseChar c

/-- `before` is the text already mapped and `result` its mapping, both reversed. -/
def lowercaseFrom (before result : List Char) : List Char → List Char
  | [] => result.reverse
  | c :: after =>
    lowercaseFrom (c :: before) ((lowercaseBetween before c after).reverse ++ result) after

def lowercase (text : List Char) : List Char := lowercaseFrom [] [] text

end EntitySchema.Text

namespace EntitySchema

/-- The form of a name under which it is stored and looked up. -/
def fold (text : String) : String := String.ofList (Text.lowercase text.toList)

/-- Compares two names character by character, so that both forms of small sigma
stay distinct wherever they stand. -/
def eqFolded (a b : String) : Bool :=
  a.toList.flatMap Text.lowercaseChar == b.toList.flatMap Text.lowercaseChar

end EntitySchema
