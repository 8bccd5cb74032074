import EntitySchema.Proofs.Grammar.Accepting
import EntitySchema.Proofs.Lexemes

/-! Rows of tokens and the texts they are cut from. A text is cut the same way wherever it
stands, and whatever comes after it unless it ends in a string. -/
namespace EntitySchema

open TokenStream (ahead)

namespace Lexer

theorem streamAfter_eq (before : List Token) (lexer : Lexer) :
    lexer.streamAfter before = lexer.stream.prepend before := by
  rw [stream, streamAfter, streamAfter]
  split
  · rename_i token after read
    split
    · rfl
    · rename_i more
      have shorter := length_next_lt read more
      rw [streamAfter_eq (token :: before) after, streamAfter_eq [token] after]
      rfl
  · rfl
termination_by lexer.cursor.rest.length

/-- A lexer goes on until it reads the end or fails. -/
theorem stream_next (lexer : Lexer) :
    lexer.stream =
      match lexer.next with
      | (.ok token, after) =>
        if token.kind = .endOfInput then .exhausted token.span else .token token after.stream
      | (.error fault, after) => .failed fault after := by
  rw [stream, streamAfter]
  split
  · rename_i token after read
    simp only [read]
    split
    · rfl
    · rw [streamAfter_eq]
      rfl
  · rename_i fault after read
    simp only [read]
    rfl

/-- The token read last makes no difference to those that follow. -/
theorem stream_congr {lexer other : Lexer}
    (same : lexer.cursor.skipTrivia = other.cursor.skipTrivia) : lexer.stream = other.stream := by
  have read : lexer.next = other.next := by rw [next, next, same]
  rw [stream_next, stream_next, read]

end Lexer

/-- The tokens from a cursor on. -/
def Cursor.stream (cursor : Cursor) : TokenStream :=
  Lexer.stream ⟨cursor, cursor.mark.to cursor.mark⟩

theorem Lexer.stream_eq (lexer : Lexer) : lexer.stream = lexer.cursor.stream :=
  stream_congr rfl

/-- What is read behind blanks and comments makes up the stream. -/
theorem Cursor.stream_of_skipped {source behind : List Char} {mark start : Mark}
    (skipped : Cursor.skipTrivia ⟨source, mark⟩ = ⟨behind, start⟩) :
    Cursor.stream ⟨source, mark⟩ =
      match Cursor.readToken ⟨behind, start⟩ with
      | (.ok token, after) =>
        if token.kind = .endOfInput then .exhausted token.span else .token token after.stream
      | (.error fault, after) => .failed fault ⟨after, start.to start⟩ := by
  rw [Cursor.stream, Lexer.stream_next, Lexer.next, skipped]
  rcases Cursor.readToken ⟨behind, start⟩ with ⟨fault | token, after⟩
  · rfl
  · simp only [Lexer.stream_eq]

theorem Cursor.stream_of_trivia {comment : Bool} {text rest : List Char}
    (trivia : Trivia false text comment) (stands : Stands comment rest) (mark : Mark)
    (again : Stands false rest) :
    Cursor.stream ⟨text ++ rest, mark⟩ = Cursor.stream ⟨rest, mark.after text⟩ := by
  have skipped : Cursor.skipTrivia ⟨rest, mark.after text⟩ = _ := skipTrivia_of_stands again _
  rw [Cursor.stream_of_skipped (skipTrivia_of_trivia trivia stands mark),
    Cursor.stream_of_skipped skipped]

theorem Cursor.stream_nil (mark : Mark) : Cursor.stream ⟨[], mark⟩ = .exhausted (mark.to mark) :=
  Cursor.stream_of_skipped rfl

/-- A text that is cut into tokens of the given spellings, in front of another text. -/
inductive Cut : List Char → List Spelling → List Char → Prop
  | done {more : List Char} : Cut [] [] more
  | token {comment : Bool} {blank word text more : List Char} {spelling : Spelling}
      {spellings : List Spelling} :
      Trivia false blank comment → Stands comment (word ++ (text ++ more)) →
      Lexeme word spelling (text ++ more) → Cut text spellings more →
      Cut (blank ++ (word ++ text)) (spelling :: spellings) more

namespace Cut

variable {text first last more : List Char} {spellings others : List Spelling}

theorem append (front : Cut first spellings (last ++ more)) (back : Cut last others more) :
    Cut (first ++ last) (spellings ++ others) more := by
  generalize split : last ++ more = behind at front
  induction front with
  | done => exact back
  | token trivia stands lexeme _ ih =>
    subst split
    rw [List.append_assoc, List.append_assoc]
    rw [← List.append_assoc _ last more] at stands lexeme
    exact .token trivia stands lexeme (ih rfl)

theorem lexeme {word : List Char} {spelling : Spelling} (lexeme : Lexeme word spelling more)
    (stands : Stands false (word ++ more)) : Cut word [spelling] more := by
  have cut : Cut ([] ++ (word ++ [])) [spelling] more := .token (.done false) stands lexeme .done
  rwa [List.nil_append, List.append_nil] at cut

/-- The tokens of a text, wherever it stands. -/
theorem stream (cut : Cut text spellings more) (mark : Mark) :
    ∃ tokens, tokens.map Token.spelling = spellings ∧
      Cursor.stream ⟨text ++ more, mark⟩ =
        ahead tokens (Cursor.stream ⟨more, mark.after text⟩) := by
  induction cut generalizing mark with
  | done => exact ⟨[], rfl, rfl⟩
  | @token comment blank word text more spelling spellings trivia stands lexeme _ ih =>
    obtain ⟨tokens, spelled, found⟩ := ih ((mark.after blank).after word)
    have skipped := skipTrivia_of_trivia trivia stands mark
    have read := readToken_of_lexeme lexeme (mark.after blank)
    refine ⟨⟨spelling.1, spelling.2, (mark.after blank).to ((mark.after blank).after word)⟩ ::
      tokens, by rw [List.map_cons, spelled]; rfl, ?_⟩
    rw [List.append_assoc, List.append_assoc, Cursor.stream_of_skipped skipped, read,
      Mark.after_append, Mark.after_append]
    simp only [lexeme.kind_ne_endOfInput, if_false, found]
    rfl

theorem ne_nil {spelling : Spelling} (cut : Cut text (spelling :: spellings) more) : text ≠ [] := by
  cases cut with
  | token _ _ lexeme _ => simp [lexeme.ne_nil]

/-- What is cut to its end without a string there is cut so in front of any text. -/
theorem move (cut : Cut text spellings more)
    (closed : ∀ spelling ∈ spellings.getLast?, spelling.1 ≠ .string) (other : List Char) :
    Cut text spellings other := by
  induction cut with
  | done => exact .done
  | @token comment blank word text more spelling spellings trivia stands lexeme cut ih =>
    cases spellings with
    | nil =>
      cases cut
      have last := closed spelling rfl
      exact .token trivia (lexeme.stands_congr last stands)
        (lexeme.congr fun string => (last string).elim) .done
    | cons next spellings =>
      obtain ⟨c, text, rfl⟩ := List.exists_cons_of_ne_nil cut.ne_nil
      obtain ⟨d, word, rfl⟩ := List.exists_cons_of_ne_nil lexeme.ne_nil
      refine .token trivia ?_ (lexeme.congr fun _ => rfl) (ih (by simpa using closed))
      -- at most the first two characters matter
      cases word with
      | nil => exact stands
      | cons e word => exact stands

end Cut

/-- The first token of a stream, with the text it is cut from and what stands before it. -/
theorem Cursor.exists_of_stream_token {source : List Char} {mark : Mark} {token : Token}
    {rest : TokenStream} (read : Cursor.stream ⟨source, mark⟩ = .token token rest) :
    ∃ blank comment word more, source = blank ++ (word ++ more) ∧ Trivia false blank comment ∧
      Stands comment (word ++ more) ∧ Lexeme word token.spelling more ∧
      token.span = (mark.after blank).to ((mark.after blank).after word) ∧
      rest = Cursor.stream ⟨more, (mark.after blank).after word⟩ := by
  obtain ⟨blank, behind, comment, rfl, trivia, stands, skipped⟩ :=
    trivia_of_skipTrivia false source mark
  rw [Cursor.stream_of_skipped skipped] at read
  rcases found : Cursor.readToken ⟨behind, mark.after blank⟩ with ⟨fault | first, after⟩
  · rw [found] at read
    cases read
  · simp only [found] at read
    split at read
    · cases read
    · rename_i last
      cases read
      obtain ⟨word, rfl, lexeme, same, span⟩ := lexeme_of_readToken stands found last
      obtain ⟨more, behind⟩ := after
      cases same
      exact ⟨blank, comment, word, more, rfl, trivia, stands, lexeme, span, rfl⟩

/-- A stream without tokens comes from trivia only. -/
theorem Cursor.trivia_of_stream_exhausted {source : List Char} {mark : Mark} {span : Span}
    (read : Cursor.stream ⟨source, mark⟩ = .exhausted span) :
    ∃ comment, Trivia false source comment := by
  obtain ⟨blank, behind, comment, rfl, trivia, stands, skipped⟩ :=
    trivia_of_skipTrivia false source mark
  rw [Cursor.stream_of_skipped skipped] at read
  rcases found : Cursor.readToken ⟨behind, mark.after blank⟩ with ⟨fault | first, after⟩
  · rw [found] at read
    cases read
  · simp only [found] at read
    split at read
    · rename_i last
      rw [eq_nil_of_readToken found last, List.append_nil]
      exact ⟨comment, trivia⟩
    · cases read

/-- Whatever tokens a stream begins with, they were cut from the text it begins with. -/
theorem Cut.of_stream {source : List Char} {mark : Mark} {tokens : List Token}
    {rest : TokenStream} (read : Cursor.stream ⟨source, mark⟩ = ahead tokens rest) :
    ∃ text more, source = text ++ more ∧ Cut text (tokens.map Token.spelling) more ∧
      rest = Cursor.stream ⟨more, mark.after text⟩ ∧
      ∀ token ∈ tokens.getLast?, token.span.stop = (mark.after text).offset := by
  induction tokens generalizing source mark with
  | nil => exact ⟨[], source, rfl, .done, read.symm, nofun⟩
  | cons token tokens ih =>
    obtain ⟨blank, comment, word, behind, rfl, trivia, stands, lexeme, span, follows⟩ :=
      Cursor.exists_of_stream_token read
    obtain ⟨text, more, rfl, cut, same, stop⟩ := ih follows.symm
    refine ⟨blank ++ (word ++ text), more, by simp, .token trivia stands lexeme cut, ?_, ?_⟩
    · rw [same, Mark.after_append, Mark.after_append]
    · intro last final
      rw [Mark.after_append, Mark.after_append]
      cases tokens with
      | nil =>
        obtain rfl : token = last := by simpa using final
        cases cut
        rw [span]
        rfl
      | cons other tokens => exact stop last (by simpa using final)

end EntitySchema
