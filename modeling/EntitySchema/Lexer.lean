import EntitySchema.Error
import EntitySchema.Text.Blank

/-! Cutting source text into tokens. Blanks other than line feeds and `//` comments
separate tokens and are dropped; everything else becomes a token or a fault. After
a fault the lexer stands where it stopped and may be asked again. -/
namespace EntitySchema

/-- The unread source text and the mark at which it begins. -/
structure Cursor where
  rest : List Char
  mark : Mark
  deriving DecidableEq, Repr

/-- Characters that end a bare word. -/
def isDelimiter (c : Char) : Bool :=
  c ∈ ['"', '(', ')', '[', ']', '{', '}', ':', '=', '+']

def isBareWord (c : Char) : Bool := !Text.isBlank c && !isDelimiter c

/-- Skips blanks and comments up to the next token or line feed. Within a comment
everything up to the line feed is skipped. -/
def skipTrivia (comment : Bool) : List Char → Mark → Cursor
  | [], mark => ⟨[], mark⟩
  | c :: rest, mark =>
    if c = '\n' then ⟨c :: rest, mark⟩
    else if comment || Text.isBlank c then skipTrivia comment rest (mark.step c)
    else if c = '/' ∧ rest.head? = some '/' then skipTrivia true rest (mark.step c)
    else ⟨c :: rest, mark⟩

def Cursor.skipTrivia (cursor : Cursor) : Cursor :=
  EntitySchema.skipTrivia false cursor.rest cursor.mark

/-- The character that a backslash and the given character stand for. -/
def escaped? : Char → Option Char
  | 'n' => some '\n'
  | 't' => some '\t'
  | '\\' => some '\\'
  | '"' => some '"'
  | _ => none

/-- Reads a quoted string after its opening quote; `text` is what has been read,
reversed. A backslash that escapes nothing stands for itself. -/
def readQuoted (text : List Char) : List Char → Mark → Option String × Cursor
  | [], mark => (none, ⟨[], mark⟩)
  | '"' :: rest, mark => (some (String.ofList text.reverse), ⟨rest, mark.step '"'⟩)
  | '\\' :: c :: rest, mark =>
    match escaped? c with
    | some plain => readQuoted (plain :: text) rest ((mark.step '\\').step c)
    | none => readQuoted ('\\' :: text) (c :: rest) (mark.step '\\')
  | c :: rest, mark => readQuoted (c :: text) rest (mark.step c)

/-- Reads parenthesised text after its opening parenthesis. The other outcomes are
a second opening parenthesis, at which the cursor stops, and the end of the source. -/
def readArguments (source : List Char) (mark : Mark) : Except SyntaxProblem String × Cursor :=
  let inside := fun c => c != '(' && c != ')'
  let text := source.takeWhile inside
  let mark := mark.after text
  match source.dropWhile inside with
  | ')' :: rest => (.ok (String.ofList text), ⟨rest, mark.step ')'⟩)
  | [] => (.error .unterminatedArguments, ⟨[], mark⟩)
  | rest => (.error .nestedParenthesis, ⟨rest, mark⟩)

/-- A fault at a mark. -/
def Mark.malformed (mark : Mark) (problem : SyntaxProblem) : Fault :=
  ⟨.malformed problem, mark.line, mark.column⟩

/-- The kinds of token that are a single character. -/
def symbol? : Char → Option TokenKind
  | '\n' => some .newline
  | ':' => some .colon
  | '+' => some .plus
  | '=' => some .equals
  | '[' => some .bracketOpen
  | ']' => some .bracketClose
  | _ => none

/-- Reads the token that begins at a cursor. What is left open is reported where
it began, other faults where they stand. -/
def Cursor.readToken (cursor : Cursor) : Except Fault Token × Cursor :=
  match cursor.rest with
  | [] => (.ok (.endOfInput (cursor.mark.to cursor.mark)), cursor)
  | c :: rest =>
    let mark := cursor.mark.step c
    let token := fun kind text (after : Cursor) =>
      ((.ok ⟨kind, text, cursor.mark.to after.mark⟩, after) : Except Fault Token × Cursor)
    match symbol? c with
    | some kind => token kind c.toString ⟨rest, mark⟩
    | none =>
      if c = '"' then
        match readQuoted [] rest mark with
        | (some text, after) => token .string text after
        | (none, after) => (.error (cursor.mark.malformed .unterminatedString), after)
      else if c = '(' then
        match readArguments rest mark with
        | (.ok text, after) => token .parenArgs text after
        | (.error .nestedParenthesis, after) =>
          (.error (after.mark.malformed .nestedParenthesis), after)
        | (.error problem, after) => (.error (cursor.mark.malformed problem), after)
      else if isDelimiter c then (.error (cursor.mark.malformed (.unexpectedCharacter c)), cursor)
      else
        let word := c :: rest.takeWhile isBareWord
        token .string (String.ofList word) ⟨rest.dropWhile isBareWord, cursor.mark.after word⟩

/-- A cursor together with the span of the token last read. -/
structure Lexer where
  cursor : Cursor
  last : Span
  deriving DecidableEq, Repr

namespace Lexer

def ofText (source : String) : Lexer :=
  ⟨⟨source.toList, .start⟩, Mark.start.to .start⟩

/-- Reads the next token. After a fault, the token last read is the empty one where
the faulty one began. -/
def next (lexer : Lexer) : Except Fault Token × Lexer :=
  let start := lexer.cursor.skipTrivia
  match start.readToken with
  | (.ok token, after) => (.ok token, ⟨after, token.span⟩)
  | (.error fault, after) => (.error fault, ⟨after, start.mark.to start.mark⟩)

end Lexer
end EntitySchema
