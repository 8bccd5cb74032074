import EntitySchema.Proofs.Lexemes
import EntitySchema.Proofs.Offsets

/-! Where the tokens of a text stand in it. Read one after the other to the end, they cover
the text in order and without overlaps, and leave out blanks and comments only. -/
namespace EntitySchema

namespace Lexer

/-- Asking for one token after the other up to the end of the text: what is read, with the
end as its last token, and the lexer that is left. -/
inductive Reads : Lexer → List Token → Lexer → Prop
  | last {lexer after : Lexer} {token : Token} :
      lexer.next = (.ok token, after) → token.kind = .endOfInput → Reads lexer [token] after
  | more {lexer middle after : Lexer} {token : Token} {tokens : List Token} :
      lexer.next = (.ok token, middle) → token.kind ≠ .endOfInput →
      Reads middle tokens after → Reads lexer (token :: tokens) after

end Lexer

/-- What is left out in front of a token: blanks other than line feeds, and comments up to
a line feed or the end. -/
def Gap (gap rest : List Char) : Prop :=
  ∃ comment, Trivia false gap comment ∧ Stands comment rest

/-- Tokens that are cut from a text one behind the other, from a mark on to its end. -/
inductive Tiles : Mark → List Char → List Token → Prop
  | done {mark : Mark} {gap : List Char} :
      Gap gap [] → Tiles mark gap [.endOfInput ((mark.after gap).to (mark.after gap))]
  | token {mark : Mark} {gap word rest : List Char} {token : Token} {tokens : List Token} :
      Gap gap (word ++ rest) → Lexeme word token.spelling rest →
      token.span = (mark.after gap).to ((mark.after gap).after word) →
      Tiles ((mark.after gap).after word) rest tokens →
      Tiles mark (gap ++ (word ++ rest)) (token :: tokens)

/-- Where nothing is left, the end is read again and again. -/
theorem Lexer.next_of_ended {lexer after : Lexer} {token : Token}
    (read : lexer.next = (.ok token, after)) (last : token.kind = .endOfInput) :
    Gap lexer.cursor.rest [] ∧ after.next = (.ok token, after) ∧
      token = .endOfInput ((lexer.cursor.mark.after lexer.cursor.rest).to
        (lexer.cursor.mark.after lexer.cursor.rest)) := by
  obtain ⟨⟨text, mark⟩, span⟩ := lexer
  obtain ⟨gap, behind, comment, rfl, trivia, stands, skipped⟩ :=
    trivia_of_skipTrivia false text mark
  have start : Cursor.skipTrivia ⟨gap ++ behind, mark⟩ = ⟨behind, mark.after gap⟩ := skipped
  rw [Lexer.next, start] at read
  rcases found : Cursor.readToken ⟨behind, mark.after gap⟩ with ⟨fault | first, stop⟩
  · rw [found] at read
    cases read
  · rw [found] at read
    cases read
    obtain rfl := eq_nil_of_readToken found last
    cases found
    rw [List.append_nil]
    exact ⟨⟨comment, trivia, stands⟩, rfl, rfl⟩

/-- The induction follows the tokens, one call of the lexer each. -/
theorem Lexer.tiles_of_reads {lexer after : Lexer} {tokens : List Token}
    (reads : Reads lexer tokens after) :
    Tiles lexer.cursor.mark lexer.cursor.rest tokens ∧
      ∃ last, tokens.getLast? = some last ∧ after.next = (.ok last, after) := by
  induction reads with
  | last read ended =>
    obtain ⟨gap, again, rfl⟩ := next_of_ended read ended
    exact ⟨.done gap, _, rfl, again⟩
  | @more lexer middle after token tokens read more _ ih =>
    obtain ⟨tiles, last, final, again⟩ := ih
    obtain ⟨⟨text, mark⟩, span⟩ := lexer
    obtain ⟨gap, behind, comment, rfl, trivia, stands, skipped⟩ :=
      trivia_of_skipTrivia false text mark
    have start : Cursor.skipTrivia ⟨gap ++ behind, mark⟩ = ⟨behind, mark.after gap⟩ := skipped
    rw [next, start] at read
    rcases found : Cursor.readToken ⟨behind, mark.after gap⟩ with ⟨fault | first, stop⟩
    · rw [found] at read
      cases read
    · rw [found] at read
      cases read
      obtain ⟨word, rfl, lexeme, same, span⟩ := lexeme_of_readToken stands found more
      rw [same] at span tiles
      refine ⟨.token ⟨comment, trivia, stands⟩ lexeme span tiles, last, ?_, again⟩
      cases tokens with
      | nil => cases final
      | cons other tokens => exact final

/-- Tokens against the whole text that they are cut from. -/
structure Tiling (text : List Char) (tokens : List Token) : Prop where
  /-- A span lies between characters, and the token is what is written there. -/
  covers : ∀ token ∈ tokens, ∃ front word back, text = front ++ (word ++ back) ∧
    token.span = (Mark.start.after front).to (Mark.start.after (front ++ word)) ∧
    (Lexeme word token.spelling back ∨
      word = [] ∧ back = [] ∧ token.spelling = (.endOfInput, ""))
  /-- Between the end of a span, or the beginning of the text, and the next span. -/
  gaps : ∀ pair ∈ (0 :: tokens.map fun token => token.span.stop).zip tokens,
    ∃ front gap back, text = front ++ (gap ++ back) ∧ pair.1 = Text.byteSize front ∧
      pair.2.span.start = Text.byteSize (front ++ gap) ∧ Gap gap back
  ordered : tokens.Pairwise fun token later => token.span.stop ≤ later.span.start
  solid : ∀ token ∈ tokens, token.kind ≠ .endOfInput → token.span.start < token.span.stop
  few : tokens.length ≤ Text.byteSize text + 1
  ended : ∃ others last, tokens = others ++ [last] ∧ last.kind = .endOfInput ∧
    last.span.start = Text.byteSize text ∧ last.span.stop = Text.byteSize text ∧
    ∀ token ∈ others, token.kind ≠ .endOfInput

namespace Tiles

variable {mark : Mark} {text : List Char} {tokens : List Token}

theorem covers (tiles : Tiles mark text tokens) (before : List Char)
    (behind : mark = Mark.start.after before) :
    ∀ token ∈ tokens, ∃ front word back, before ++ text = front ++ (word ++ back) ∧
      token.span = (Mark.start.after front).to (Mark.start.after (front ++ word)) ∧
      (Lexeme word token.spelling back ∨
        word = [] ∧ back = [] ∧ token.spelling = (.endOfInput, "")) := by
  induction tiles generalizing before with
  | @done mark gap skipped =>
    intro token member
    obtain rfl := List.mem_singleton.mp member
    refine ⟨before ++ gap, [], [], by simp, ?_, Or.inr ⟨rfl, rfl, rfl⟩⟩
    rw [List.append_nil, Mark.after_append, ← behind]
    rfl
  | @token mark gap word rest token tokens _ lexeme span _ ih =>
    intro other member
    have further : (mark.after gap).after word = Mark.start.after (before ++ gap ++ word) := by
      rw [Mark.after_append, Mark.after_append, ← behind]
    rcases List.mem_cons.mp member with rfl | later
    · refine ⟨before ++ gap, word, rest, by simp, ?_, Or.inl lexeme⟩
      rw [span, further, Mark.after_append _ before, ← behind]
    · obtain ⟨front, covered, back, same, place⟩ := ih _ further other later
      exact ⟨front, covered, back, by rw [← same]; simp, place⟩

theorem gaps (tiles : Tiles mark text tokens) (before : List Char)
    (behind : mark = Mark.start.after before) :
    ∀ pair ∈ (Text.byteSize before :: tokens.map fun token => token.span.stop).zip tokens,
      ∃ front gap back, before ++ text = front ++ (gap ++ back) ∧
        pair.1 = Text.byteSize front ∧ pair.2.span.start = Text.byteSize (front ++ gap) ∧
        Gap gap back := by
  have offset : ∀ text, (Mark.start.after text).offset = Text.byteSize text := fun text => by
    rw [Mark.offset_after, Mark.start, Nat.zero_add]
  induction tiles generalizing before with
  | @done mark gap skipped =>
    intro pair member
    obtain rfl : pair = (Text.byteSize before, _) := List.mem_singleton.mp member
    refine ⟨before, gap, [], by simp, rfl, ?_, skipped⟩
    rw [← offset (before ++ gap), Mark.after_append, ← behind]
    rfl
  | @token mark gap word rest token tokens skipped _ span _ ih =>
    intro pair member
    have further : (mark.after gap).after word = Mark.start.after (before ++ gap ++ word) := by
      rw [Mark.after_append, Mark.after_append, ← behind]
    have stop : token.span.stop = Text.byteSize (before ++ gap ++ word) := by
      rw [span, ← offset, ← further]
      rfl
    rw [List.map_cons, List.zip_cons_cons] at member
    rcases List.mem_cons.mp member with rfl | later
    · refine ⟨before, gap, word ++ rest, rfl, rfl, ?_, skipped⟩
      rw [span, ← offset, Mark.after_append, ← behind]
      rfl
    · rw [stop] at later
      obtain ⟨front, between, back, same, rest⟩ := ih _ further pair later
      exact ⟨front, between, back, by rw [← same]; simp, rest⟩

theorem mark_le (tiles : Tiles mark text tokens) :
    ∀ token ∈ tokens, mark.offset ≤ token.span.start := by
  induction tiles with
  | @done mark gap _ =>
    intro token member
    obtain rfl := List.mem_singleton.mp member
    change mark.offset ≤ (mark.after gap).offset
    rw [Mark.offset_after]
    omega
  | @token mark gap word rest token tokens _ _ span _ ih =>
    intro other member
    have starts : token.span.start = mark.offset + Text.byteSize gap := by
      rw [span, ← Mark.offset_after]
      rfl
    rcases List.mem_cons.mp member with rfl | later
    · omega
    · have := ih other later
      rw [Mark.offset_after, Mark.offset_after] at this
      omega

theorem ordered (tiles : Tiles mark text tokens) :
    tokens.Pairwise fun token later => token.span.stop ≤ later.span.start := by
  induction tiles with
  | done => exact List.pairwise_singleton _ _
  | token _ _ span rest ih =>
    refine List.pairwise_cons.mpr ⟨fun later member => ?_, ih⟩
    rw [span]
    exact rest.mark_le later member

theorem solid (tiles : Tiles mark text tokens) :
    ∀ token ∈ tokens, token.kind ≠ .endOfInput → token.span.start < token.span.stop := by
  induction tiles with
  | done =>
    intro token member more
    obtain rfl := List.mem_singleton.mp member
    exact (more rfl).elim
  | @token mark gap word rest token tokens _ lexeme span _ ih =>
    intro other member more
    rcases List.mem_cons.mp member with rfl | later
    · have positive := Text.byteSize_pos lexeme.ne_nil
      rw [span]
      change (mark.after gap).offset < ((mark.after gap).after word).offset
      rw [Mark.offset_after _ word]
      omega
    · exact ih other later more

theorem few (tiles : Tiles mark text tokens) : tokens.length ≤ Text.byteSize text + 1 := by
  induction tiles with
  | done => simp
  | token _ lexeme _ _ ih =>
    have positive := Text.byteSize_pos lexeme.ne_nil
    rw [List.length_cons, Text.byteSize_append, Text.byteSize_append]
    omega

theorem ended (tiles : Tiles mark text tokens) :
    ∃ others last, tokens = others ++ [last] ∧ last.kind = .endOfInput ∧
      last.span.start = mark.offset + Text.byteSize text ∧
      last.span.stop = mark.offset + Text.byteSize text ∧
      ∀ token ∈ others, token.kind ≠ .endOfInput := by
  induction tiles with
  | @done mark gap _ =>
    rw [← Mark.offset_after]
    exact ⟨[], _, rfl, rfl, rfl, rfl, nofun⟩
  | @token mark gap word rest token tokens _ lexeme _ _ ih =>
    obtain ⟨others, last, rfl, final, start, stop, more⟩ := ih
    rw [← Mark.offset_after, ← Mark.after_append, ← Mark.after_append] at start stop
    rw [← Mark.offset_after]
    exact ⟨token :: others, last, rfl, final, start, stop,
      List.forall_mem_cons.mpr ⟨lexeme.kind_ne_endOfInput, more⟩⟩

theorem tiling (tiles : Tiles .start text tokens) : Tiling text tokens where
  covers := tiles.covers [] rfl
  gaps := tiles.gaps [] rfl
  ordered := tiles.ordered
  solid := tiles.solid
  few := tiles.few
  ended := by simpa [Mark.start] using tiles.ended

end Tiles

/-- Tokens that are read up to the end of a text tile it, and from then on nothing but the
end is read, at the same place. -/
theorem tiling_of_reads {source : String} {tokens : List Token} {after : Lexer}
    (reads : (Lexer.ofText source).Reads tokens after) :
    Tiling source.toList tokens ∧
      ∃ last, tokens.getLast? = some last ∧ after.next = (.ok last, after) := by
  obtain ⟨tiles, ended⟩ := Lexer.tiles_of_reads reads
  exact ⟨tiles.tiling, ended⟩

namespace Commented

/-- A comment, a word of two bytes, a quoted quote, arguments and a comment at the end. -/
def source : String := "// c\nè\"a\\\"b\"(x y)= // end"

def tokens : List Token :=
  [⟨.newline, "\n", ⟨4, 5, 1, 5⟩⟩, ⟨.string, "è", ⟨5, 7, 2, 1⟩⟩, ⟨.string, "a\"b", ⟨7, 13, 2, 2⟩⟩,
    ⟨.parenArgs, "x y", ⟨13, 18, 2, 8⟩⟩, ⟨.equals, "=", ⟨18, 19, 2, 13⟩⟩,
    ⟨.endOfInput, "", ⟨26, 26, 2, 21⟩⟩]

def after : Lexer := ⟨⟨[], ⟨26, 2, 21⟩⟩, ⟨26, 26, 2, 21⟩⟩

theorem reads_source : (Lexer.ofText source).Reads tokens after :=
  .more rfl (by decide) (.more rfl (by decide) (.more rfl (by decide) (.more rfl (by decide)
    (.more rfl (by decide) (.last rfl rfl)))))

end Commented

theorem tiling_of_reads_commented :
    (Lexer.ofText Commented.source).Reads Commented.tokens Commented.after ∧
      Tiling Commented.source.toList Commented.tokens ∧
      ∃ last, Commented.tokens.getLast? = some last ∧
        Commented.after.next = (.ok last, Commented.after) :=
  ⟨Commented.reads_source, tiling_of_reads Commented.reads_source⟩

end EntitySchema
