import EntitySchema.Grammar.Parser

/-! Attribute lists: strings with a colon before each, written after the name of a
member or the value of a list entry. An attribute may be left empty before another
colon and may be joined from pieces with plus signs. -/
namespace EntitySchema.Grammar

/-- Where a reader of attributes stands. -/
inductive Awaiting where
  /-- At the start or behind an attribute. -/
  | separator
  /-- Behind a colon. -/
  | attribute
  /-- Behind a plus sign. -/
  | piece
  deriving DecidableEq

/-- The complaint about a token that does not fit. -/
def Awaiting.complaint (awaiting : Awaiting) (token : Token) : Fault :=
  match awaiting with
  | .piece => token.malformed (.expected .string token)
  | _ => token.unexpected

/-- Joins a further piece to the attribute read last. -/
def joinPiece (piece : String) : List String → List String
  | last :: rest => (last ++ piece) :: rest
  | [] => [piece]

/-- Reads attributes up to the token that ends the list, and returns that token as
well. Those already read are given in reverse. Line breaks end the list only where
a colon could stand. -/
def readAttributes (awaiting : Awaiting) (attributes : List String) :
    Parser (List String × Token)
  | .token token rest =>
    match awaiting with
    | .separator =>
      match token.kind with
      | .string => .error (token.malformed (.tooManyStrings token.text)) rest
      | .colon => readAttributes .attribute attributes rest
      | .plus =>
        if attributes.isEmpty then .error (token.malformed .plusWithoutString) rest
        else readAttributes .piece attributes rest
      | .endOfInput => .error token.unexpected rest
      | _ => .ok (attributes.reverse, token) rest
    | .attribute =>
      match token.kind with
      | .string => readAttributes .separator (token.text :: attributes) rest
      | .colon => readAttributes .attribute ("" :: attributes) rest
      | .plus => .error (token.malformed .plusWithoutString) rest
      | .newline => readAttributes .attribute attributes rest
      | _ => .error token.unexpected rest
    | .piece =>
      match token.kind with
      | .string => readAttributes .separator (joinPiece token.text attributes) rest
      | .newline => readAttributes .piece attributes rest
      | _ => .error (token.malformed (.expected .string token)) rest
  | .exhausted span => .error (awaiting.complaint (.endOfInput span)) (.exhausted span)
  | .failed fault resume => .error fault resume.stream

theorem consuming_readAttributes (awaiting : Awaiting) (attributes : List String) :
    Consuming (readAttributes awaiting attributes) := by
  intro stream rest result read
  fun_induction readAttributes <;> grind [TokenStream.length]

end EntitySchema.Grammar
