import EntitySchema.Proofs.Cutting
import EntitySchema.Proofs.Grammar.Sentences
import EntitySchema.Proofs.WellFormed

/-! Writing classes in the definition language. What is written is a row of pieces, each of
which is cut as one token again; names and texts are quoted, so they may hold anything. -/
namespace EntitySchema.Grammar

/-- How a character is written between quotes. -/
def escape : Char → List Char
  | '\n' => ['\\', 'n']
  | '\t' => ['\\', 't']
  | '\\' => ['\\', '\\']
  | '"' => ['\\', '"']
  | c => [c]

theorem quoted_escape (text : List Char) : Quoted (text.flatMap escape) text := by
  induction text with
  | nil => exact .done
  | cons c text ih =>
    rw [List.flatMap_cons]
    unfold escape
    split
    · exact .escape rfl ih
    · exact .escape rfl ih
    · exact .escape rfl ih
    · exact .escape rfl ih
    · rename_i newline tab backslash quote
      exact .plain quote backslash ih

theorem quoted_verbatim {text : List Char} (plain : ∀ c ∈ text, c ≠ '"' ∧ c ≠ '\\') :
    Quoted text text := by
  induction text with
  | nil => exact .done
  | cons c text ih =>
    obtain ⟨⟨quote, backslash⟩, others⟩ := List.forall_mem_cons.mp plain
    exact .plain quote backslash (ih others)

/-- Text between quotes. -/
def enclosed (raw : List Char) : List Char := '"' :: (raw ++ ['"'])

theorem next_of_quoted {raw text : List Char} (quoted : Quoted raw text) (more : List Char)
    (mark : Mark) (last : Span) :
    Lexer.next ⟨⟨enclosed raw ++ more, mark⟩, last⟩ =
      (.ok ⟨.string, String.ofList text, mark.to (mark.after (enclosed raw))⟩,
        ⟨⟨more, mark.after (enclosed raw)⟩, mark.to (mark.after (enclosed raw))⟩) := by
  have solid : Stands false (enclosed raw ++ more) :=
    Or.inr ⟨rfl, by decide, fun opens => nomatch opens.1⟩
  have begins : Cursor.skipTrivia ⟨enclosed raw ++ more, mark⟩ = ⟨enclosed raw ++ more, mark⟩ :=
    skipTrivia_of_stands solid mark
  have lexeme : Lexeme (enclosed raw) (.string, String.ofList text) more := .quoted quoted
  rw [Lexer.next, begins, readToken_of_lexeme lexeme]

/-- Every text can be written between quotes, with escapes or, if it holds neither quotes nor
backslashes, as it is. It is read back as one string, up to right behind the closing quote,
wherever it stands and whatever follows. -/
theorem next_enclosed {text : String} {raw : List Char}
    (written : raw = text.toList.flatMap escape ∨
      raw = text.toList ∧ ∀ c ∈ text.toList, c ≠ '"' ∧ c ≠ '\\')
    (more : List Char) (mark : Mark) (last : Span) :
    Lexer.next ⟨⟨enclosed raw ++ more, mark⟩, last⟩ =
      (.ok ⟨.string, text, mark.to (mark.after (enclosed raw))⟩,
        ⟨⟨more, mark.after (enclosed raw)⟩, mark.to (mark.after (enclosed raw))⟩) := by
  have quoted : Quoted raw text.toList := by
    rcases written with rfl | ⟨rfl, plain⟩
    · exact quoted_escape text.toList
    · exact quoted_verbatim plain
  have read := next_of_quoted quoted more mark last
  rwa [String.ofList_toList] at read

/-- A backslash in front of an `n`, a quote, a line feed, a tab and a backslash at the end, in
front of a further quote. -/
theorem next_enclosed_backslashes :
    "\\\\n\\\"\\n\\t\\\\".toList = "\\n\"\n\t\\".toList.flatMap escape ∧
      (Lexer.ofText "\"\\\\n\\\"\\n\\t\\\\\"\"").next =
        (.ok ⟨.string, "\\n\"\n\t\\", ⟨0, 13, 1, 1⟩⟩, ⟨⟨['"'], ⟨13, 1, 14⟩⟩, ⟨0, 13, 1, 1⟩⟩) :=
  ⟨rfl, @next_enclosed "\\n\"\n\t\\" _ (Or.inl rfl) ['"'] .start (Mark.start.to .start)⟩

/-- The parts that a class is written from. -/
inductive Piece where
  | colon | equals | opening | closing | lineBreak
  | word (text : String)
  | quoted (text : String)
  | arguments (text : String)

namespace Piece

def spelling : Piece → Spelling
  | colon => (.colon, ":")
  | equals => (.equals, "=")
  | opening => (.bracketOpen, "[")
  | closing => (.bracketClose, "]")
  | lineBreak => (.newline, "\n")
  | word text | quoted text => (.string, text)
  | arguments text => (.parenArgs, text)

/-- Arguments follow what they belong to, other pieces on a line stand apart. -/
def written : Piece → List Char
  | colon => [' ', ':']
  | equals => [' ', '=']
  | opening => [' ', '[']
  | closing => [' ', ']']
  | lineBreak => ['\n']
  | word text => ' ' :: text.toList
  | quoted text => ' ' :: '"' :: (text.toList.flatMap escape ++ ['"'])
  | arguments text => '(' :: (text.toList ++ [')'])

/-- Bare words hold no characters that end them and do not look like comments; texts in
parentheses hold no further ones. -/
def Valid : Piece → Prop
  | word text => (text.toList ≠ [] ∧ text.toList.head? ≠ some '/') ∧
      ∀ c ∈ text.toList, isBareWord c = true
  | arguments text => ∀ c ∈ text.toList, c ≠ '(' ∧ c ≠ ')'
  | _ => True

@[simp] theorem valid_colon : colon.Valid := True.intro

@[simp] theorem valid_equals : equals.Valid := True.intro

@[simp] theorem valid_opening : opening.Valid := True.intro

@[simp] theorem valid_closing : closing.Valid := True.intro

@[simp] theorem valid_lineBreak : lineBreak.Valid := True.intro

@[simp] theorem valid_quoted (text : String) : (quoted text).Valid := True.intro

theorem cut {piece : Piece} (valid : piece.Valid) {more : List Char}
    (ends : ∀ c ∈ more.head?, isBareWord c = false) : Cut piece.written [piece.spelling] more := by
  have blank : Trivia false [' '] false := .blank (by decide) (by decide) (.done false)
  have spaced : ∀ {word : List Char} {spelling : Spelling}, Lexeme word spelling more →
      Stands false (word ++ more) → Cut (' ' :: word) [spelling] more := by
    intro word spelling lexeme stands
    have cut : Cut ([' '] ++ (word ++ [])) [spelling] more := .token blank stands lexeme .done
    rwa [List.append_nil] at cut
  have solid : ∀ {c : Char} {rest : List Char}, Text.isBlank c = false → c ≠ '/' →
      Stands false (c :: rest) :=
    fun bare other => Or.inr ⟨rfl, bare, fun opens => other opens.1⟩
  cases piece with
  | colon => exact spaced (.symbol rfl) (solid (by decide) (by decide))
  | equals => exact spaced (.symbol rfl) (solid (by decide) (by decide))
  | opening => exact spaced (.symbol rfl) (solid (by decide) (by decide))
  | closing => exact spaced (.symbol rfl) (solid (by decide) (by decide))
  | lineBreak => exact .lexeme (.symbol rfl) (stands_lineBreak _ _)
  | word text =>
    obtain ⟨⟨filled, first⟩, bare⟩ := valid
    have lexeme : Lexeme text.toList (.string, text) more := by
      simpa using Lexeme.word filled bare ends
    obtain ⟨c, rest, split⟩ := List.exists_cons_of_ne_nil filled
    refine spaced lexeme ?_
    rw [split] at first bare ⊢
    have plain : Text.isBlank c = false := isBlank_of_isBareWord (bare c List.mem_cons_self)
    exact solid plain fun slash => first (congrArg some slash)
  | quoted text =>
    have lexeme : Lexeme _ _ more := .quoted (quoted_escape text.toList)
    rw [String.ofList_toList] at lexeme
    exact spaced lexeme (solid (by decide) (by decide))
  | arguments text =>
    have lexeme : Lexeme _ _ more := .arguments valid
    rw [String.ofList_toList] at lexeme
    exact .lexeme lexeme (solid (by decide) (by decide))

theorem head?_written (piece : Piece) : ∀ c ∈ piece.written.head?, isBareWord c = false := by
  cases piece <;> simp [written] <;> decide

theorem written_ne_nil (piece : Piece) : piece.written ≠ [] := by
  cases piece <;> simp [written]

end Piece

/-- A row is cut into what its parts are cut into if none of them goes on with a word. -/
theorem cut_flatMap {α : Type} {written : α → List Char} {spelling : α → Spelling}
    {parts : List α} (each : ∀ part ∈ parts, written part ≠ [] ∧
      (∀ c ∈ (written part).head?, isBareWord c = false) ∧
      ∀ more, (∀ c ∈ more.head?, isBareWord c = false) → Cut (written part) [spelling part] more)
    {more : List Char} (ends : ∀ c ∈ more.head?, isBareWord c = false) :
    Cut (parts.flatMap written) (parts.map spelling) more := by
  induction parts with
  | nil => exact .done
  | cons part parts ih =>
    obtain ⟨⟨-, -, first⟩, others⟩ := List.forall_mem_cons.mp each
    have follows : ∀ c ∈ (parts.flatMap written ++ more).head?, isBareWord c = false := by
      cases parts with
      | nil => exact ends
      | cons next parts =>
        obtain ⟨⟨some, bare, -⟩, -⟩ := List.forall_mem_cons.mp others
        obtain ⟨c, text, split⟩ := List.exists_cons_of_ne_nil some
        rw [split] at bare
        simpa [List.flatMap_cons, split] using bare
    exact .append (first _ follows) (ih others)

/-- A row of pieces is cut as it was written, unless it ends in a word that goes on. -/
theorem cut_pieces {pieces : List Piece} (valid : ∀ piece ∈ pieces, piece.Valid)
    {more : List Char} (ends : ∀ c ∈ more.head?, isBareWord c = false) :
    Cut (pieces.flatMap Piece.written) (pieces.map Piece.spelling) more :=
  cut_flatMap (fun piece member => ⟨piece.written_ne_nil, piece.head?_written,
    fun _ => Piece.cut (valid piece member)⟩) ends

/-- Arguments with commas between them. -/
def joined (arguments : List String) : String :=
  String.ofList ([','].intercalate (arguments.map String.toList))

def helperPieces (helper : Helper) : List Piece :=
  [.word helper.kind.keyword, .arguments (joined helper.arguments)]

/-- Texts with a colon before each. -/
def attributePieces (texts : List String) : List Piece :=
  texts.flatMap fun text => [.colon, .quoted text]

/-- A flag by the value of its bit, with its label and whether it is set initially. -/
def flagPieces (entry : FlagEntry) : List Piece :=
  [.word (toString entry.bit.value), .colon, .quoted entry.label, .colon,
    .word (if entry.initial then "1" else "0"), .lineBreak]

def choicePieces (choice : Choice) : List Piece :=
  [.quoted choice.value] ++ attributePieces [choice.label] ++ [.lineBreak]

def entryPieces : ValueList → List Piece
  | .flags entries => entries.flatMap flagPieces
  | .choices entries => entries.flatMap choicePieces

/-- A list between brackets, one entry a line. -/
def listPieces : Option ValueList → List Piece
  | some values => [.equals, .opening, .lineBreak] ++ (entryPieces values ++ [.closing])
  | none => []

def markPieces (readonly : Bool) : List Piece :=
  if readonly then [.word "readonly"] else []

/-- The line of a keyvalue, or its lines if it has a list. -/
def keyValuePieces (keyValue : KeyValue) : List Piece :=
  .quoted keyValue.name :: .arguments keyValue.type.keyword :: (markPieces keyValue.readonly ++
    attributePieces [keyValue.displayName, keyValue.initial, keyValue.description] ++
      (listPieces keyValue.values ++ [.lineBreak]))

/-- The line of a signal. -/
def signalPieces (direction : Direction) (signal : Signal) : List Piece :=
  .word (directionWord direction) :: .quoted signal.name :: .arguments signal.type.keyword ::
    (attributePieces [signal.description] ++ [.lineBreak])

def headPieces (entity : EntityClass) : List Piece :=
  helperPieces ⟨.inherit, entity.names⟩ ++ (entity.helpers.flatMap helperPieces ++
    (.equals :: .quoted entity.name :: (attributePieces [entity.description] ++ [.opening])))

def bodyPieces (entity : EntityClass) : List Piece :=
  .lineBreak :: (entity.keyValues.values.flatMap keyValuePieces ++
    (entity.inputs.values.flatMap (signalPieces .input) ++
      (entity.outputs.values.flatMap (signalPieces .output) ++ [.closing])))

/-- A class as it is written behind the keyword of its category: the bases and helpers, the
name and the description, and the members, one a line, in brackets. -/
def writtenBlock (entity : EntityClass) : List Char :=
  (headPieces entity ++ bodyPieces entity).flatMap Piece.written

end EntitySchema.Grammar
