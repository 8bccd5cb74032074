import EntitySchema.Proofs.Grammar.Spacing
import EntitySchema.Proofs.Loading.Inlining
import EntitySchema.Proofs.Loading.Moving
import Mathlib

/-! Lines with nothing on them but blanks and comments. Each is read as one more line break, and
a line break behind another one means nothing, wherever in a text the two stand. -/
namespace EntitySchema

open TokenStream (ahead)

namespace TokenStream

/-- Tokens, and what they end in. -/
theorem exists_ahead (stream : TokenStream) :
    ∃ tokens ending, stream = ahead tokens ending ∧ ∀ token rest, ending ≠ .token token rest := by
  induction stream with
  | token head rest ih =>
    obtain ⟨tokens, ending, rfl, ended⟩ := ih
    exact ⟨head :: tokens, ending, rfl, ended⟩
  | exhausted span => exact ⟨[], _, rfl, nofun⟩
  | failed fault resume => exact ⟨[], _, rfl, nofun⟩

theorem exists_append_of_ahead {front tokens : List Token} {rest ending : TokenStream}
    (ended : ∀ token rest, ending ≠ .token token rest)
    (same : ahead front rest = ahead tokens ending) :
    ∃ back, tokens = front ++ back ∧ rest = ahead back ending := by
  induction front generalizing tokens with
  | nil => exact ⟨tokens, rfl, same⟩
  | cons head front ih =>
    cases tokens with
    | nil => exact (ended _ _ same.symm).elim
    | cons token tokens =>
      obtain ⟨rfl, further⟩ : head = token ∧ ahead front rest = ahead tokens ending := by
        simpa using same
      obtain ⟨back, rfl, behind⟩ := ih further
      exact ⟨back, rfl, behind⟩

end TokenStream

namespace Source

open Grammar

section

variable {tokens others : List Token}

theorem Directed.spaced {keyword : String} {directive : Directive}
    (directed : Directed keyword tokens directive) (spaced : Spaced tokens others) :
    Directed keyword others directive := by
  cases directed with
  | includeFile folded expected =>
    exact .includeFile folded (expected.spaced spaced (by decide))
  | mapSize folded expected known =>
    exact .mapSize folded (expected.spaced spaced (by decide)) known
  | classHead notInclude notMapSize named known headed =>
    exact .classHead notInclude notMapSize named known (headed.spaced spaced)

theorem Inclusion.spaced {keyword target : Token} (inclusion : Inclusion keyword tokens target)
    (spaced : Spaced (keyword :: tokens) others) :
    ∃ rest, others = keyword :: rest ∧ Inclusion keyword rest target := by
  obtain ⟨string, folded, expected⟩ := inclusion
  obtain ⟨rest, rfl, behind⟩ := spaced.of_solid (by simp [string])
  exact ⟨rest, rfl, string, folded, expected.spaced behind (by decide)⟩

/-- Line breaks that are left over behind a directive are directives themselves. -/
theorem Stated.spaced {change : Database → Database} (stated : Stated tokens change)
    (spaced : Spaced tokens others) :
    ∃ front breaks, others = front ++ breaks ∧ Breaks breaks ∧ Stated front change := by
  cases stated with
  | lineBreak lineBreak =>
    obtain ⟨breaks, rfl, empty, -⟩ := spaced.of_last
    exact ⟨[_], breaks, rfl, empty, .lineBreak lineBreak⟩
  | mapSize string directed =>
    obtain ⟨rest, rfl, behind⟩ := spaced.of_solid (by simp [string])
    exact ⟨_, [], (List.append_nil _).symm, nofun, .mapSize string (directed.spaced behind)⟩
  | block string directed body =>
    obtain ⟨rest, rfl, behind⟩ := spaced.of_solid (by simp [string])
    obtain ⟨heading, lines, rfl, headed, last⟩ := behind.of_append
    exact ⟨_, [], (List.append_nil _).symm, nofun,
      .block string (directed.spaced headed) (body.spaced last)⟩

/-- A row of directives is loaded as it is without further line breaks. The induction takes
directive by directive, each with the line breaks behind it. -/
theorem Loaded.spaced {options : LoadOptions} {includeFile : String → Loading Unit}
    {stream ending : TokenStream} {db after : Database}
    (loaded : Loaded options includeFile stream db after)
    (ended : ∀ token rest, ending ≠ .token token rest) (same : stream = ahead tokens ending)
    (spaced : Spaced tokens others) :
    Loaded options includeFile (ahead others ending) db after := by
  induction loaded generalizing tokens others with
  | done =>
    cases tokens with
    | nil =>
      obtain rfl := spaced.of_nil
      rw [← same]
      exact .done
    | cons => cases same
  | stop last =>
    cases tokens with
    | nil => exact (ended _ _ same.symm).elim
    | cons =>
      cases same
      obtain ⟨breaks, rest, rfl, -, -⟩ := spaced.of_cons
      exact .stop last
  | @stated _ _ change db after stated _ ih =>
    obtain ⟨back, rfl, behind⟩ := TokenStream.exists_append_of_ahead ended same
    obtain ⟨first, last, rfl, before, further⟩ := spaced.of_append
    obtain ⟨front, breaks, rfl, empty, stated⟩ := stated.spaced before
    rw [List.append_assoc, TokenStream.ahead_append]
    refine .stated stated ?_
    refine empty.absorbed (P := fun row => Loaded options includeFile (ahead row ending) _ after)
      (fun token row lineBreak rest => ?_) (ih behind further)
    change Loaded options includeFile (ahead [token] (ahead row ending)) _ after
    exact .stated (.lineBreak lineBreak) rest
  | included inclusion included _ ih =>
    rw [← TokenStream.ahead_cons] at same
    obtain ⟨back, rfl, behind⟩ := TokenStream.exists_append_of_ahead ended same
    obtain ⟨first, last, rfl, before, further⟩ := spaced.of_append
    obtain ⟨rest, rfl, inclusion⟩ := inclusion.spaced before
    rw [TokenStream.ahead_append]
    exact .included inclusion included (ih behind further)

end

end Source

/-- A line of blanks, and of a comment if there is one. -/
def Idle (line : List Char) : Prop :=
  (∀ c ∈ line, c ≠ '\n') ∧ ∃ blanks comment, line = blanks ++ comment ∧
    (∀ c ∈ blanks, Text.isBlank c = true) ∧ (comment = [] ∨ ['/', '/'] <+: comment)

theorem trivia_of_comment {text : List Char} (single : ∀ c ∈ text, c ≠ '\n') :
    Trivia true text true := by
  induction text with
  | nil => exact .done true
  | cons c text ih =>
    obtain ⟨plain, rest⟩ := List.forall_mem_cons.mp single
    exact .inside plain (ih rest)

theorem Idle.trivia {line : List Char} (idle : Idle line) :
    ∃ comment, Trivia false line comment := by
  obtain ⟨single, blanks, comment, rfl, blank, written⟩ := idle
  induction blanks with
  | nil =>
    obtain rfl | ⟨text, rfl⟩ := written
    · exact ⟨false, .done false⟩
    · exact ⟨true, .opening (trivia_of_comment (List.forall_mem_cons.mp single).2)⟩
  | cons c blanks ih =>
    obtain ⟨plain, rest⟩ := List.forall_mem_cons.mp single
    obtain ⟨space, blank⟩ := List.forall_mem_cons.mp blank
    obtain ⟨comment, trivia⟩ := ih rest blank
    exact ⟨comment, .blank plain space trivia⟩

/-- Lines with nothing on them are cut into their line breaks. -/
theorem cut_lines {lines : List (List Char)} (idle : ∀ line ∈ lines, Idle line)
    (more : List Char) :
    Cut (lines.flatMap (· ++ ['\n'])) (List.replicate lines.length (.newline, "\n")) more := by
  induction lines with
  | nil => exact .done
  | cons line lines ih =>
    obtain ⟨first, rest⟩ := List.forall_mem_cons.mp idle
    obtain ⟨comment, trivia⟩ := first.trivia
    rw [List.flatMap_cons, List.append_assoc]
    exact .token trivia (stands_lineBreak comment _) (.symbol rfl) (ih rest)

/-- Only a line feed is a line break. -/
theorem Lexeme.of_lineBreak {word more : List Char} {spelling : Spelling}
    (lexeme : Lexeme word spelling more) (lineBreak : spelling.1 = .newline) :
    word = ['\n'] ∧ spelling = (.newline, "\n") := by
  cases lexeme with
  | @symbol c kind _ known =>
    obtain rfl : kind = .newline := lineBreak
    obtain rfl : c = '\n' := by
      unfold symbol? at known
      split at known <;> first | rfl | cases known
    exact ⟨rfl, rfl⟩
  | _ => cases lineBreak

/-- The text up to a line break that is a token is cut into the tokens up to that one. -/
theorem Cut.of_lineBreak {text front back : List Char} {mark : Mark} {before : List Token}
    {lineBreak : Token} {rest : TokenStream}
    (read : Cursor.stream ⟨text, mark⟩ = ahead before (.token lineBreak rest))
    (kind : lineBreak.kind = .newline)
    (starts : lineBreak.span.start = mark.offset + Text.byteSize front)
    (split : text = front ++ '\n' :: back) :
    lineBreak.spelling = (.newline, "\n") ∧
      Cut (front ++ ['\n']) ((before ++ [lineBreak]).map Token.spelling) back ∧
      rest = Cursor.stream ⟨back, mark.after (front ++ ['\n'])⟩ := by
  obtain ⟨first, more, rfl, cut, follows, -⟩ := Cut.of_stream read
  obtain ⟨blank, comment, word, behind, rfl, trivia, stands, lexeme, span, last⟩ :=
    Cursor.exists_of_stream_token follows.symm
  obtain ⟨rfl, spelling⟩ := lexeme.of_lineBreak kind
  have size : Text.byteSize front = Text.byteSize (first ++ blank) := by
    have begins := congrArg Span.start span
    change _ = ((mark.after first).after blank).offset at begins
    rw [starts, ← Mark.after_append, Mark.offset_after] at begins
    omega
  rw [← List.append_assoc first] at split
  obtain ⟨rfl, more⟩ := Text.append_inj_of_byteSize split.symm size
  cases more
  have token : Cut (blank ++ (['\n'] ++ [])) [lineBreak.spelling] behind :=
    .token trivia stands lexeme .done
  rw [List.append_nil] at token
  rw [← List.append_assoc blank] at cut
  refine ⟨spelling, ?_, ?_⟩
  · rw [List.map_append, List.append_assoc first]
    exact cut.append token
  · rw [last, Mark.after_append, Mark.after_append]
    rfl

/-- Tokens alike go in front of what has moved. -/
theorem Alike.moved {R : Place → Place → Prop} (anywhere : ∀ place other, R place other)
    {tokens others : List Token} (alike : Alike tokens others) {rest other : TokenStream}
    (moved : rest.Moved R other) : (ahead tokens rest).Moved R (ahead others other) := by
  induction tokens generalizing others with
  | nil =>
    obtain rfl := alike.of_nil
    exact moved
  | cons token tokens ih =>
    obtain ⟨⟨kind, text, span⟩, others, rfl, rfl, rfl, further⟩ := alike.of_cons
    exact .token ⟨anywhere _ _⟩ (ih further)

namespace Source

open Grammar

/-- The same text with lines that have nothing on them behind a line feed that is a token. -/
inductive Respaced : String → String → Prop
  | intro {text other : String} {before : List Token} {lineBreak : Token} {rest : TokenStream}
      {front back : List Char} {lines : List (List Char)} :
      TokenStream.ofText text = ahead before (.token lineBreak rest) →
      lineBreak.kind = .newline → lineBreak.span.start = Text.byteSize front →
      text.toList = front ++ '\n' :: back → (∀ line ∈ lines, Idle line) →
      other.toList = front ++ '\n' :: (lines.flatMap (· ++ ['\n']) ++ back) →
      Respaced text other

section

variable {source : FileSource} {options : LoadOptions} {name text other : String}
  {db after : Database}

/-- The tokens are the same but for further line breaks behind one, and for where they stand. -/
theorem Respaced.exists_moved (respaced : Respaced text other) :
    ∃ before lineBreak breaks rest, lineBreak.kind = .newline ∧ Breaks breaks ∧
      TokenStream.ofText text = ahead before (.token lineBreak rest) ∧
      (ahead (before ++ lineBreak :: breaks) rest).Moved (fun _ _ => True)
        (TokenStream.ofText other) := by
  obtain ⟨stream, kind, starts, split, idle, joined⟩ := respaced
  rename_i before lineBreak rest front back lines
  obtain ⟨spelling, cut, rfl⟩ :=
    Cut.of_lineBreak stream kind (by rw [starts, Mark.start, Nat.zero_add]) split
  have closed : ∀ last ∈ ((before ++ [lineBreak]).map Token.spelling).getLast?,
      last.1 ≠ .string := by
    simp [spelling]
  obtain ⟨others, spelled, found⟩ :=
    ((cut.move closed _).append (cut_lines idle back)).stream .start
  have whole : other.toList = front ++ ['\n'] ++ lines.flatMap (· ++ ['\n']) ++ back := by
    simp [joined]
  rw [← whole] at found
  have alike : Alike (before ++ lineBreak :: List.replicate lines.length lineBreak) others := by
    simp [Alike, spelled, spelling]
  refine ⟨before, lineBreak, List.replicate lines.length lineBreak, _, kind, ?_, stream, ?_⟩
  · simp [Breaks, kind]
  · rw [TokenStream.ofText, Lexer.ofText, Lexer.stream_eq, found]
    exact alike.moved (fun _ _ => True.intro) (Cursor.stream_moved fun _ _ _ => True.intro)

theorem Respaced.loadText_eq_ok (respaced : Respaced text other)
    (read : loadText source options name text db = .ok () after) :
    loadText source options name other db = .ok () after := by
  obtain ⟨before, lineBreak, breaks, rest, kind, empty, stream, moved⟩ := respaced.exists_moved
  obtain ⟨behind, ending, rfl, ended⟩ := rest.exists_ahead
  have spaced : Spaced (before ++ lineBreak :: behind) (before ++ lineBreak :: (breaks ++ behind)) :=
    (Spaced.refl before).append (.token empty (Or.inl kind) (.refl behind))
  have loaded := loaded_of_loadStream read
  rw [stream, ← TokenStream.ahead_cons, ← TokenStream.ahead_append] at loaded
  have again : loadStream _ _ name _ db = _ :=
    loadStream_of_loaded (loaded.spaced ended rfl spaced)
  rw [← List.cons_append, ← List.append_assoc, TokenStream.ahead_append] at again
  obtain ⟨ending, changed, left, alike, first, last⟩ := loadStream_moved moved db
  rw [first] at again
  rw [loadText, last]
  cases alike with
  | finished => exact again
  | _ => cases again

/-- Lines with nothing on them but blanks and comments, behind line feeds that are read as line
breaks, change nothing about a text that is loaded. -/
theorem loadText_respaced (read : loadText source options name text db = .ok () after)
    (respaced : Relation.ReflTransGen Respaced text other) :
    loadText source options name other db = .ok () after := by
  induction respaced with
  | refl => exact read
  | tail _ last ih => exact last.loadText_eq_ok ih

end

namespace Parted

/-- A directive with a line break in it. -/
def text : String := "@mapsize\n(-8, 8)"

/-- The same one with a comment and an empty line in between. -/
def other : String := "@mapsize\n \t// (\n\n(-8, 8)"

def keyword : Token := ⟨.string, "@mapsize", ⟨0, 8, 1, 1⟩⟩

def lineBreak : Token := ⟨.newline, "\n", ⟨8, 9, 1, 9⟩⟩

def bounds : Token := ⟨.parenArgs, "-8, 8", ⟨9, 16, 2, 1⟩⟩

def lines : List (List Char) := [[' ', '\t', '/', '/', ' ', '('], []]

theorem ofText_text : TokenStream.ofText text =
    ahead [keyword, lineBreak, bounds] (.exhausted ⟨16, 16, 2, 8⟩) := by
  cbv

theorem idle_lines : ∀ line ∈ lines, Idle line := by
  rw [lines, List.forall_mem_cons, List.forall_mem_singleton]
  exact ⟨⟨by simp, [' ', '\t'], ['/', '/', ' ', '('], rfl, by simp [Text.isBlank],
    Or.inr ⟨_, rfl⟩⟩, nofun, [], [], rfl, nofun, Or.inl rfl⟩

theorem read_text :
    loadText MemoryFiles.empty.source .standard "game.fgd" text ∅ = .ok () ⟨∅, -8, 8, []⟩ := by
  have sized : Stated [keyword, lineBreak, bounds] (·.setMapSize (-8) 8) :=
    .mapSize rfl (.mapSize (by decide) ⟨[lineBreak], rfl, by simp [Breaks, lineBreak], rfl⟩
      (by decide))
  rw [loadText, ofText_text]
  exact loadStream_of_loaded (.stated sized .done)

theorem respaced_text : Respaced text other := by
  have stream : TokenStream.ofText text = ahead [keyword] (.token lineBreak _) := ofText_text
  have starts : lineBreak.span.start = Text.byteSize "@mapsize".toList := by decide
  exact .intro stream rfl starts rfl idle_lines rfl

end Parted

theorem loadText_respaced_parted :
    loadText MemoryFiles.empty.source .standard "game.fgd" Parted.text ∅ =
        .ok () ⟨∅, -8, 8, []⟩ ∧
      Relation.ReflTransGen Respaced Parted.text Parted.other ∧
      loadText MemoryFiles.empty.source .standard "game.fgd" Parted.other ∅ =
        .ok () ⟨∅, -8, 8, []⟩ :=
  ⟨Parted.read_text, .single Parted.respaced_text,
    loadText_respaced Parted.read_text (.single Parted.respaced_text)⟩

end Source

end EntitySchema
