import EntitySchema.Lexer

/-! Streams of tokens, as the grammar reads them. A stream ends where its source
does or at a fault; reading on from a fault continues with what the lexer finds
behind it. -/
namespace EntitySchema

theorem length_skipTrivia_le (comment : Bool) (source : List Char) (mark : Mark) :
    (skipTrivia comment source mark).rest.length ≤ source.length := by
  fun_induction skipTrivia <;> grind

theorem length_readQuoted_le (text source : List Char) (mark : Mark) :
    (readQuoted text source mark).2.rest.length ≤ source.length := by
  fun_induction readQuoted <;> grind

theorem length_readArguments_le (source : List Char) (mark : Mark) :
    (readArguments source mark).2.rest.length ≤ source.length := by
  have shorter := (List.dropWhile_sublist (l := source) fun c => c != '(' && c != ')').length_le
  rw [readArguments]
  split <;> grind

theorem length_readToken_lt {cursor after : Cursor} {token : Token}
    (read : cursor.readToken = (.ok token, after)) (more : token.kind ≠ .endOfInput) :
    after.rest.length < cursor.rest.length := by
  rw [Cursor.readToken] at read
  split at read
  · grind [Token.endOfInput]
  · rename_i c rest source
    have quoted := length_readQuoted_le [] rest (cursor.mark.step c)
    have arguments := length_readArguments_le rest (cursor.mark.step c)
    have shorter := (List.dropWhile_sublist (l := rest) isBareWord).length_le
    dsimp only at read
    rw [source, List.length_cons]
    repeat' split at read
    all_goals grind

/-- What the grammar reads: tokens one after the other, and what comes after them. -/
inductive TokenStream where
  | token (head : Token) (rest : TokenStream)
  | exhausted (span : Span)
  | failed (fault : Fault) (resume : Lexer)

namespace TokenStream

/-- The number of tokens before the end or the next fault. -/
def length : TokenStream → Nat
  | token _ rest => rest.length + 1
  | exhausted _ | failed _ _ => 0

/-- A stream with further tokens in front, given in reverse. -/
def prepend (stream : TokenStream) (reversed : List Token) : TokenStream :=
  reversed.foldl (fun rest head => token head rest) stream

end TokenStream

namespace Lexer

theorem length_next_lt {lexer after : Lexer} {token : Token}
    (read : lexer.next = (.ok token, after)) (more : token.kind ≠ .endOfInput) :
    after.cursor.rest.length < lexer.cursor.rest.length := by
  rw [next] at read
  split at read
  · rename_i token' cursor found
    obtain ⟨rfl, rfl⟩ : token' = token ∧ (⟨cursor, token'.span⟩ : Lexer) = after := by
      simpa using read
    have := length_readToken_lt found more
    have := length_skipTrivia_le false lexer.cursor.rest lexer.cursor.mark
    simp only [Cursor.skipTrivia] at *
    omega
  · simp at read

/-- The tokens from a lexer on; those before it are given in reverse. -/
def streamAfter (before : List Token) (lexer : Lexer) : TokenStream :=
  match _ : lexer.next with
  | (.ok token, after) =>
    if _ : token.kind = .endOfInput then (TokenStream.exhausted token.span).prepend before
    else streamAfter (token :: before) after
  | (.error fault, after) => (TokenStream.failed fault after).prepend before
termination_by lexer.cursor.rest.length
decreasing_by exact length_next_lt ‹_› ‹_›

def stream (lexer : Lexer) : TokenStream := lexer.streamAfter []

/-- Reads a token of the given kind, skipping line breaks before it. -/
def expect (kind : TokenKind) (lexer : Lexer) : Except Fault Token × Lexer :=
  match _ : lexer.next with
  | (.ok token, after) =>
    if token.kind = kind then (.ok token, after)
    else if _ : token.kind = .newline then expect kind after
    else (.error (token.malformed (.expected kind token)), after)
  | (.error fault, after) => (.error fault, after)
termination_by lexer.cursor.rest.length
decreasing_by exact length_next_lt ‹_› (by simp [*])

end Lexer

namespace TokenStream

def ofText (source : String) : TokenStream := (Lexer.ofText source).stream

/-- Reads one token. At the end of the source that is an empty token, as often as
it is asked for. -/
def next : EStateM Fault TokenStream Token
  | token head rest => .ok head rest
  | exhausted span => .ok (.endOfInput span) (exhausted span)
  | failed fault resume => .error fault resume.stream

/-- Reads a token of the given kind, skipping line breaks before it. -/
def expect (kind : TokenKind) : EStateM Fault TokenStream Token
  | token head rest =>
    if head.kind = kind then .ok head rest
    else if head.kind = .newline then rest.expect kind
    else .error (head.malformed (.expected kind head)) rest
  | exhausted span =>
    let last := Token.endOfInput span
    if kind = .endOfInput then .ok last (exhausted span)
    else .error (last.malformed (.expected kind last)) (exhausted span)
  | failed fault resume => .error fault resume.stream

end TokenStream
end EntitySchema
