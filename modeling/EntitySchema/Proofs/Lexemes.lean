import EntitySchema.TokenStream

/-! The texts that single tokens are cut from, and what separates them. Of a token only
its kind and its text depend on what is written; its span depends on where that stands. -/
namespace EntitySchema

/-- What the grammar goes by in a token. -/
abbrev Spelling := TokenKind × String

def Token.spelling (token : Token) : Spelling := (token.kind, token.text)

/-- Text that is skipped between tokens, from within a comment or outside of one to
within a comment or outside of one. -/
inductive Trivia : Bool → List Char → Bool → Prop
  | done (comment : Bool) : Trivia comment [] comment
  | blank {c : Char} {text : List Char} {after : Bool} :
      c ≠ '\n' → Text.isBlank c = true → Trivia false text after → Trivia false (c :: text) after
  | opening {text : List Char} {after : Bool} :
      Trivia true ('/' :: text) after → Trivia false ('/' :: '/' :: text) after
  | inside {c : Char} {text : List Char} {after : Bool} :
      c ≠ '\n' → Trivia true text after → Trivia true (c :: text) after

/-- What is not skipped: line feeds and, outside of comments, everything but blanks and
what begins a comment. -/
def Stands (comment : Bool) : List Char → Prop
  | [] => True
  | c :: rest =>
    c = '\n' ∨ comment = false ∧ Text.isBlank c = false ∧ ¬(c = '/' ∧ rest.head? = some '/')

theorem stands_lineBreak (comment : Bool) (rest : List Char) : Stands comment ('\n' :: rest) :=
  Or.inl rfl

theorem skipTrivia_of_stands {comment : Bool} {source : List Char} (stands : Stands comment source)
    (mark : Mark) : skipTrivia comment source mark = ⟨source, mark⟩ := by
  cases source with
  | nil => rfl
  | cons c rest =>
    rcases stands with rfl | ⟨rfl, solid, other⟩
    · rfl
    · simp [skipTrivia, solid, other]

theorem skipTrivia_of_trivia {comment after : Bool} {text rest : List Char}
    (trivia : Trivia comment text after) (stands : Stands after rest) (mark : Mark) :
    skipTrivia comment (text ++ rest) mark = ⟨rest, mark.after text⟩ := by
  induction trivia generalizing mark with
  | done comment => exact skipTrivia_of_stands stands mark
  | blank inLine blank _ ih => simp [skipTrivia, inLine, blank, ih stands]
  | opening _ ih => simpa [skipTrivia, Text.isBlank] using ih stands (mark.step '/')
  | inside inLine _ ih => simp [skipTrivia, inLine, ih stands]

theorem trivia_of_skipTrivia (comment : Bool) (source : List Char) (mark : Mark) :
    ∃ text rest after, source = text ++ rest ∧ Trivia comment text after ∧ Stands after rest ∧
      skipTrivia comment source mark = ⟨rest, mark.after text⟩ := by
  fun_induction skipTrivia with
  | case1 comment mark => exact ⟨[], [], comment, rfl, .done _, True.intro, rfl⟩
  | case2 comment rest mark => exact ⟨[], _, comment, rfl, .done _, Or.inl rfl, rfl⟩
  | case3 comment c rest mark inLine skipped ih =>
    obtain ⟨text, rest, after, rfl, trivia, stands, same⟩ := ih
    refine ⟨c :: text, rest, after, rfl, ?_, stands, same⟩
    cases comment with
    | true => exact .inside inLine trivia
    | false => exact .blank inLine (by simpa using skipped) trivia
  | case4 comment c rest mark inLine solid opens ih =>
    obtain ⟨rfl, second⟩ := opens
    obtain ⟨text, rest, after, rfl, trivia, stands, same⟩ := ih
    obtain rfl : comment = false := by simp_all
    refine ⟨'/' :: text, rest, after, rfl, ?_, stands, same⟩
    cases text with
    | nil =>
      -- a comment goes on behind its second slash
      cases trivia
      cases rest with
      | nil => cases second
      | cons c rest =>
        cases second
        rcases stands with newline | ⟨within, -⟩
        · cases newline
        · cases within
    | cons c text =>
      cases second
      exact .opening trivia
  | case5 comment c rest mark inLine solid closed =>
    refine ⟨[], c :: rest, comment, rfl, .done _, Or.inr ?_, rfl⟩
    simp only [Bool.or_eq_true, not_or, Bool.not_eq_true] at solid
    exact ⟨solid.1, solid.2, closed⟩

/-- The written form of a text between quotes. -/
inductive Quoted : List Char → List Char → Prop
  | done : Quoted [] []
  | escape {c plain : Char} {raw text : List Char} :
      escaped? c = some plain → Quoted raw text → Quoted ('\\' :: c :: raw) (plain :: text)
  | backslash {c : Char} {raw text : List Char} :
      escaped? c = none → Quoted (c :: raw) text → Quoted ('\\' :: c :: raw) ('\\' :: text)
  | plain {c : Char} {raw text : List Char} :
      c ≠ '"' → c ≠ '\\' → Quoted raw text → Quoted (c :: raw) (c :: text)

theorem readQuoted_of_quoted {raw text : List Char} (quoted : Quoted raw text)
    (before rest : List Char) (mark : Mark) :
    readQuoted before (raw ++ '"' :: rest) mark =
      (some (String.ofList (before.reverse ++ text)), ⟨rest, (mark.after raw).step '"'⟩) := by
  induction quoted generalizing before mark with
  | done => simp [readQuoted]
  | escape plain _ ih => simp [readQuoted, plain, ih]
  | backslash plain _ ih =>
    have := ih ('\\' :: before) (mark.step '\\')
    simp only [List.cons_append] at this
    simp [readQuoted, plain, this]
  | plain _ backslash _ ih => simp [readQuoted, backslash, ih]

theorem quoted_of_readQuoted {before source : List Char} {mark : Mark} {read : String}
    {after : Cursor} (found : readQuoted before source mark = (some read, after)) :
    ∃ raw text, source = raw ++ '"' :: after.rest ∧ Quoted raw text ∧
      read = String.ofList (before.reverse ++ text) ∧
      after.mark = (mark.after raw).step '"' := by
  fun_induction readQuoted with
  | case1 => cases found
  | case2 before rest mark =>
    cases found
    exact ⟨[], [], rfl, .done, by simp, rfl⟩
  | case3 before c rest mark plain escape ih =>
    obtain ⟨raw, text, rfl, quoted, rfl, same⟩ := ih found
    exact ⟨'\\' :: c :: raw, plain :: text, rfl, .escape escape quoted, by simp, same⟩
  | case4 before c rest mark unescaped ih =>
    obtain ⟨raw, text, split, quoted, rfl, same⟩ := ih found
    cases raw with
    | nil =>
      cases split
      cases unescaped
    | cons c raw =>
      cases split
      exact ⟨'\\' :: c :: raw, '\\' :: text, rfl, .backslash unescaped quoted, by simp, same⟩
  | case5 before c rest mark quote backslash ih =>
    obtain ⟨raw, text, rfl, quoted, rfl, same⟩ := ih found
    refine ⟨c :: raw, c :: text, rfl, .plain ?_ ?_ quoted, by simp, same⟩
    · rintro rfl
      exact quote rfl
    · rintro rfl
      -- a backslash always has something behind it
      cases raw with
      | nil => exact backslash _ _ rfl rfl
      | cons d raw => exact backslash _ _ rfl rfl

theorem kind_ne_of_symbol? {c : Char} {kind : TokenKind} (known : symbol? c = some kind) :
    kind ≠ .endOfInput := by
  rintro rfl
  unfold symbol? at known
  split at known <;> cases known

/-- A text that is cut as one token, in front of another text. Only bare words depend on
what follows. -/
inductive Lexeme : List Char → Spelling → List Char → Prop
  | symbol {c : Char} {kind : TokenKind} {more : List Char} :
      symbol? c = some kind → Lexeme [c] (kind, c.toString) more
  | quoted {raw text more : List Char} :
      Quoted raw text → Lexeme ('"' :: (raw ++ ['"'])) (.string, String.ofList text) more
  | arguments {text more : List Char} :
      (∀ c ∈ text, c ≠ '(' ∧ c ≠ ')') →
      Lexeme ('(' :: (text ++ [')'])) (.parenArgs, String.ofList text) more
  | word {word more : List Char} :
      word ≠ [] → (∀ c ∈ word, isBareWord c = true) →
      (∀ c ∈ more.head?, isBareWord c = false) → Lexeme word (.string, String.ofList word) more

namespace Lexeme

variable {word more : List Char} {spelling : Spelling}

theorem ne_nil (lexeme : Lexeme word spelling more) : word ≠ [] := by
  cases lexeme <;> simp_all

theorem kind_ne_endOfInput (lexeme : Lexeme word spelling more) : spelling.1 ≠ .endOfInput := by
  cases lexeme with
  | symbol known => exact kind_ne_of_symbol? known
  | quoted => nofun
  | arguments => nofun
  | word => nofun

end Lexeme

namespace Lexeme

variable {word more other : List Char} {spelling : Spelling}

/-- What follows matters to strings only, and of that only where it begins. -/
theorem congr (lexeme : Lexeme word spelling more)
    (same : spelling.1 = .string → other.head? = more.head?) : Lexeme word spelling other := by
  cases lexeme with
  | symbol known => exact .symbol known
  | quoted quoted => exact .quoted quoted
  | arguments plain => exact .arguments plain
  | word some bare ends => exact .word some bare (by rwa [same rfl])

theorem stands_congr {comment : Bool} (lexeme : Lexeme word spelling more)
    (closed : spelling.1 ≠ .string) (stands : Stands comment (word ++ more)) :
    Stands comment (word ++ other) := by
  cases lexeme with
  | @symbol c kind _ known =>
    have plain : c ≠ '/' := by
      rintro rfl
      cases known
    rcases stands with newline | ⟨outside, solid, -⟩
    · exact Or.inl newline
    · exact Or.inr ⟨outside, solid, fun opens => plain opens.1⟩
  | quoted quoted => exact (closed rfl).elim
  | @arguments text _ plain =>
    cases text with
    | nil => exact stands
    | cons c text => exact stands
  | word some bare ends => exact (closed rfl).elim

end Lexeme

theorem readArguments_of_plain {text : List Char} (plain : ∀ c ∈ text, c ≠ '(' ∧ c ≠ ')')
    (rest : List Char) (mark : Mark) :
    readArguments (text ++ ')' :: rest) mark =
      (.ok (String.ofList text), ⟨rest, (mark.after text).step ')'⟩) := by
  have inside : ∀ c ∈ text, (c != '(' && c != ')') = true := by
    simpa using plain
  have dropped : (text ++ ')' :: rest).dropWhile (fun c => c != '(' && c != ')') = ')' :: rest := by
    rw [List.dropWhile_append_of_pos inside]
    rfl
  have taken : (text ++ ')' :: rest).takeWhile (fun c => c != '(' && c != ')') = text := by
    rw [List.takeWhile_append_of_pos inside]
    exact List.append_nil text
  simp [readArguments, dropped, taken]

theorem arguments_of_readArguments {source : List Char} {mark : Mark} {read : String}
    {after : Cursor} (found : readArguments source mark = (.ok read, after)) :
    ∃ text, source = text ++ ')' :: after.rest ∧ (∀ c ∈ text, c ≠ '(' ∧ c ≠ ')') ∧
      read = String.ofList text ∧ after.mark = (mark.after text).step ')' := by
  have whole := List.takeWhile_append_dropWhile (p := fun c => c != '(' && c != ')') (l := source)
  rw [readArguments] at found
  split at found
  · rename_i rest left
    cases found
    refine ⟨_, ?_, fun c member => ?_, rfl, rfl⟩
    · rw [← left, whole]
    · simpa using List.all_eq_true.mp List.all_takeWhile c member
  · cases found
  · cases found

theorem isBlank_of_isBareWord {c : Char} (bare : isBareWord c = true) : Text.isBlank c = false := by
  simpa using (Bool.and_eq_true_iff.mp bare).1

theorem symbol?_of_isBareWord {c : Char} (bare : isBareWord c = true) : symbol? c = none := by
  unfold symbol?
  split <;> first | rfl | (revert bare; decide)

theorem readToken_of_lexeme {word more : List Char} {spelling : Spelling}
    (lexeme : Lexeme word spelling more) (mark : Mark) :
    Cursor.readToken ⟨word ++ more, mark⟩ =
      (.ok ⟨spelling.1, spelling.2, mark.to (mark.after word)⟩, ⟨more, mark.after word⟩) := by
  cases lexeme with
  | symbol known => simp [Cursor.readToken, known]
  | quoted quoted =>
    have read := readQuoted_of_quoted quoted [] more (mark.step '"')
    simp [Cursor.readToken, symbol?, read, Mark.after_append]
  | arguments plain =>
    have read := readArguments_of_plain plain more (mark.step '(')
    simp [Cursor.readToken, symbol?, read, Mark.after_append]
  | word some bare ends =>
    obtain ⟨c, word, rfl⟩ := List.exists_cons_of_ne_nil some
    obtain ⟨first, others⟩ := List.forall_mem_cons.mp bare
    have plain := symbol?_of_isBareWord first
    have quote : c ≠ '"' := by
      rintro rfl
      cases first
    have parenthesis : c ≠ '(' := by
      rintro rfl
      cases first
    have solid : isDelimiter c = false := by
      simpa using (Bool.and_eq_true_iff.mp first).2
    have stop : more.takeWhile isBareWord = [] ∧ more.dropWhile isBareWord = more := by
      cases more with
      | nil => exact ⟨rfl, rfl⟩
      | cons d more => simp [ends d rfl]
    have taken : (word ++ more).takeWhile isBareWord = word := by
      rw [List.takeWhile_append_of_pos others, stop.1, List.append_nil]
    have dropped : (word ++ more).dropWhile isBareWord = more := by
      rw [List.dropWhile_append_of_pos others, stop.2]
    simp [Cursor.readToken, plain, quote, parenthesis, solid, taken, dropped]

/-- Only where nothing is left is the end reached. -/
theorem eq_nil_of_readToken {source : List Char} {mark : Mark} {token : Token} {after : Cursor}
    (read : Cursor.readToken ⟨source, mark⟩ = (.ok token, after))
    (last : token.kind = .endOfInput) : source = [] := by
  cases source with
  | nil => rfl
  | cons c rest =>
    rw [Cursor.readToken] at read
    dsimp only at read
    split at read
    · rename_i kind known
      cases read
      exact (kind_ne_of_symbol? known last).elim
    · repeat' split at read
      all_goals cases read
      all_goals cases last

theorem lexeme_of_readToken {comment : Bool} {source : List Char} {mark : Mark} {token : Token}
    {after : Cursor} (stands : Stands comment source)
    (read : Cursor.readToken ⟨source, mark⟩ = (.ok token, after))
    (more : token.kind ≠ .endOfInput) :
    ∃ word, source = word ++ after.rest ∧ Lexeme word token.spelling after.rest ∧
      after.mark = mark.after word ∧ token.span = mark.to after.mark := by
  cases source with
  | nil =>
    cases read
    exact (more rfl).elim
  | cons c rest =>
    rw [Cursor.readToken] at read
    dsimp only at read
    split at read
    · rename_i kind known
      cases read
      exact ⟨[c], rfl, .symbol known, rfl, rfl⟩
    · rename_i plain
      split at read
      · rename_i quote
        subst quote
        split at read
        · rename_i text behind found
          cases read
          obtain ⟨raw, text, rfl, quoted, rfl, same⟩ := quoted_of_readQuoted found
          exact ⟨_, by simp, .quoted quoted, by simp [same, Mark.after_append], rfl⟩
        · cases read
      · split at read
        · rename_i parenthesis
          subst parenthesis
          split at read
          · rename_i text behind found
            cases read
            obtain ⟨text, rfl, inside, rfl, same⟩ := arguments_of_readArguments found
            exact ⟨_, by simp, .arguments inside, by simp [same, Mark.after_append], rfl⟩
          · cases read
          · cases read
        · split at read
          · cases read
          · rename_i solid
            cases read
            have blank : Text.isBlank c = false := by
              rcases stands with rfl | ⟨-, blank, -⟩
              · cases plain
              · exact blank
            have first : isBareWord c = true := by
              simp [isBareWord, blank, solid]
            refine ⟨c :: rest.takeWhile isBareWord, ?_, .word (List.cons_ne_nil _ _) ?_ ?_, rfl,
              rfl⟩
            · rw [List.cons_append, List.takeWhile_append_dropWhile]
            · refine List.forall_mem_cons.mpr ⟨first, fun d member => ?_⟩
              exact List.all_eq_true.mp List.all_takeWhile d member
            · intro d head
              have := List.head?_dropWhile_not isBareWord rest
              rw [head] at this
              simpa using this

end EntitySchema
