/-! Tokens of the definition language and the stretch of source they stand for.
Offsets count bytes of UTF-8; lines and columns count from one, columns in
characters. -/
namespace EntitySchema

/-- A point between two characters of a source text. -/
structure Mark where
  offset : Nat
  line : Nat
  column : Nat
  deriving DecidableEq, Repr

namespace Mark

def start : Mark := ⟨0, 1, 1⟩

/-- The mark after one more character. -/
def step (mark : Mark) (c : Char) : Mark :=
  if c = '\n' then ⟨mark.offset + c.utf8Size, mark.line + 1, 1⟩
  else ⟨mark.offset + c.utf8Size, mark.line, mark.column + 1⟩

/-- The mark after a stretch of text. -/
def after (mark : Mark) (text : List Char) : Mark := text.foldl step mark

@[simp] theorem after_nil (mark : Mark) : mark.after [] = mark := rfl

@[simp] theorem after_cons (mark : Mark) (c : Char) (text : List Char) :
    mark.after (c :: text) = (mark.step c).after text := rfl

theorem after_append (mark : Mark) (first last : List Char) :
    mark.after (first ++ last) = (mark.after first).after last :=
  List.foldl_append

end Mark

/-- From the byte offset `start` up to but not including `stop`; line and column
are those of the start. -/
structure Span where
  start : Nat
  stop : Nat
  line : Nat
  column : Nat
  deriving DecidableEq, Repr

/-- The span between two marks. -/
def Mark.to (first last : Mark) : Span := ⟨first.offset, last.offset, first.line, first.column⟩

inductive TokenKind where
  /-- A quoted string or a bare word. -/
  | string
  | newline | colon | plus | equals
  /-- A parenthesised stretch of text. -/
  | parenArgs
  | bracketOpen | bracketClose
  | endOfInput
  deriving DecidableEq, Repr

def TokenKind.name : TokenKind → String
  | .string => "string"
  | .newline => "newline"
  | .colon => "':'"
  | .plus => "'+'"
  | .equals => "'='"
  | .parenArgs => "parenthesised arguments"
  | .bracketOpen => "'['"
  | .bracketClose => "']'"
  | .endOfInput => "end of input"

/-- The text of a string is unquoted and unescaped, that of parenthesised
arguments lacks the parentheses, and a symbol is its own text. -/
structure Token where
  kind : TokenKind
  text : String
  span : Span
  deriving DecidableEq, Repr

namespace Token

def endOfInput (span : Span) : Token := ⟨.endOfInput, "", span⟩

/-- What an error message calls the token. -/
def description (token : Token) : String :=
  match token.kind with
  | .string => "string \"" ++ token.text ++ "\""
  | .parenArgs => "\"(" ++ token.text ++ ")\""
  | kind => kind.name

end Token
end EntitySchema
