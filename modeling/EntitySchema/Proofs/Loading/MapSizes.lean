import EntitySchema.Proofs.Cutting
import EntitySchema.Proofs.Grammar.Words
import EntitySchema.Proofs.Loading.Directives
import Mathlib

/-! The size of the map, as a source gives it: two integers of 64 bits, a comma between them. Every
such pair is read as it is printed. Arguments of any other form end the reading, and the bounds
given before stay. -/
namespace EntitySchema

open TokenStream (ahead)

namespace Text

variable {text : List Char} {k : Int}

/-- Numerals are written with digits and signs. -/
theorem Signed.sign_or_digit (signed : Signed text k) {c : Char} (member : c ∈ text) :
    c = '+' ∨ c = '-' ∨ c.isDigit = true := by
  cases signed with
  | unsigned unsigned =>
    rcases unsigned with decimal | ⟨digits, rfl, decimal⟩
    · exact .inr (.inr (decimal.digits c member))
    · rcases List.mem_cons.mp member with plus | inside
      · exact .inl plus
      · exact .inr (.inr (decimal.digits c inside))
  | negative decimal =>
    rcases List.mem_cons.mp member with minus | inside
    · exact .inr (.inl minus)
    · exact .inr (.inr (decimal.digits c inside))

theorem Signed.bareEnds (signed : Signed text k) : BareEnds text := by
  refine bareEnds_of_solid fun c member => ?_
  rcases signed.sign_or_digit member with rfl | rfl | digit
  · decide
  · decide
  · exact isBlank_of_isBareWord (isBareWord_of_isSmall (isSmall_of_isDigit digit))

/-- Integers are printed as numerals. -/
theorem signed_toString (k : Int) : Signed (toString k).toList k := by
  cases k with
  | ofNat n =>
    have printed : (toString (Int.ofNat n)).toList = Nat.toDigits 10 n := toList_toString n
    rw [printed]
    exact .unsigned (.inl (decimal_toDigits n))
  | negSucc n =>
    have printed : (toString (Int.negSucc n)).toList = '-' :: Nat.toDigits 10 (n + 1) := by
      change ("-" ++ toString (n + 1)).toList = _
      rw [String.toList_append, toList_toString]
      rfl
    rw [printed]
    exact .negative (decimal_toDigits (n + 1))

/-- A signed numeral with blanks around it, and the integer of 64 bits that it denotes. -/
def Denotes (text : List Char) (value : Int64) : Prop :=
  ∃ numeral, Padded numeral text ∧ Signed numeral value.toInt

theorem denotes_of_printed {value : Int64} (around : Padded (toString value).toList text) :
    Denotes text value :=
  ⟨_, around, signed_toString value.toInt⟩

theorem int64?_trim_eq_some_iff {value : Int64} :
    int64? (trim text) = some value ↔ Denotes text value := by
  rw [int64?_eq_some_iff]
  constructor
  · exact fun signed => ⟨_, padded_trim text, signed⟩
  · rintro ⟨numeral, around, signed⟩
    rwa [trim_of_padded signed.bareEnds around]

theorem Denotes.blank_or_sign_or_digit {value : Int64} (denotes : Denotes text value) {c : Char}
    (member : c ∈ text) : isBlank c = true ∨ c = '+' ∨ c = '-' ∨ c.isDigit = true := by
  obtain ⟨numeral, ⟨front, back, rfl, blank⟩, signed⟩ := denotes
  rw [List.mem_append, List.mem_append] at member
  rcases member with before | inside | behind
  · exact .inl (blank c (List.mem_append_left _ before))
  · exact .inr (signed.sign_or_digit inside)
  · exact .inl (blank c (List.mem_append_right _ behind))

/-- Numerals hold nothing that separates or encloses them. -/
theorem Denotes.plain {value : Int64} (denotes : Denotes text value) {c : Char}
    (member : c ∈ text) : c ≠ ',' ∧ c ≠ '(' ∧ c ≠ ')' := by
  refine ⟨?_, ?_, ?_⟩ <;>
  · rintro rfl
    rcases denotes.blank_or_sign_or_digit member with blank | plus | minus | digit
    · cases blank
    · cases plus
    · cases minus
    · cases digit

end Text

namespace Source

open Grammar Text

section

variable {text : String} {first last : List Char} {low high : Int64}

/-- The bounds that a text gives: what stands before its first comma denotes the lower one, and
what stands behind it the upper one. -/
def Sized (text : String) (low high : Int64) : Prop :=
  ∃ first last, text.toList = first ++ ',' :: last ∧ ',' ∉ first ∧
    Denotes first low ∧ Denotes last high

theorem ne_comma (none : ',' ∉ first) : ∀ c ∈ first, (c != ',') = true := by
  intro c member
  rw [bne_iff_ne]
  rintro rfl
  exact none member

theorem mapSize?_of_split (split : text.toList = first ++ ',' :: last) (before : ',' ∉ first) :
    mapSize? text = (int64? (trim first)).bind fun low =>
      (int64? (trim last)).map fun high => (low, high) := by
  have taken : text.toList.takeWhile (· != ',') = first := by
    rw [split, List.takeWhile_append_of_pos (ne_comma before)]
    exact List.append_nil first
  have dropped : text.toList.dropWhile (· != ',') = ',' :: last := by
    rw [split, List.dropWhile_append_of_pos (ne_comma before)]
    rfl
  rw [mapSize?, taken, dropped]
  dsimp only
  cases int64? (trim first) <;> cases int64? (trim last) <;> rfl

theorem mapSize?_of_no_comma (none : ',' ∉ text.toList) : mapSize? text = .none := by
  have dropped : text.toList.dropWhile (· != ',') = [] :=
    List.dropWhile_eq_nil_iff.mpr (ne_comma none)
  rw [mapSize?, dropped]

theorem mapSize?_eq_some_iff : mapSize? text = some (low, high) ↔ Sized text low high := by
  have ofSplit : ∀ {first last}, text.toList = first ++ ',' :: last → ',' ∉ first →
      (mapSize? text = some (low, high) ↔ Denotes first low ∧ Denotes last high) := by
    intro first last split before
    rw [mapSize?_of_split split before, ← int64?_trim_eq_some_iff, ← int64?_trim_eq_some_iff]
    cases int64? (trim first) <;> cases int64? (trim last) <;> simp
  constructor
  · intro read
    have comma : ',' ∈ text.toList := by
      by_contra none
      rw [mapSize?_of_no_comma none] at read
      cases read
    obtain ⟨first, last, split, before⟩ := List.eq_append_cons_of_mem comma
    exact ⟨first, last, split, before, (ofSplit split before).mp read⟩
  · rintro ⟨first, last, split, before, denoted⟩
    exact (ofSplit split before).mpr denoted

theorem mapSize?_eq_none_iff : mapSize? text = none ↔ ∀ low high, ¬ Sized text low high := by
  simp only [Option.eq_none_iff_forall_ne_some, Prod.forall, ne_eq, mapSize?_eq_some_iff]

/-- Two bounds in decimal, with a comma between them and any blanks around them. -/
def Printed (low high : Int64) (text : String) : Prop :=
  ∃ first last, text.toList = first ++ ',' :: last ∧
    Padded (toString low).toList first ∧ Padded (toString high).toList last

theorem Printed.sized (printed : Printed low high text) : Sized text low high := by
  obtain ⟨first, last, split, lower, upper⟩ := printed
  have lower := denotes_of_printed lower
  exact ⟨first, last, split, fun comma => (lower.plain comma).1 rfl, lower,
    denotes_of_printed upper⟩

theorem Sized.plain (sized : Sized text low high) : ∀ c ∈ text.toList, c ≠ '(' ∧ c ≠ ')' := by
  obtain ⟨first, last, split, -, lower, upper⟩ := sized
  intro c member
  rw [split, List.mem_append, List.mem_cons] at member
  rcases member with inFirst | rfl | inLast
  · exact (lower.plain inFirst).2
  · decide
  · exact (upper.plain inLast).2

end

/-- The tokens of a directive for the size of the map, and the one that has its arguments. -/
inductive Sizing : List Token → Token → Prop
  | intro {keyword bounds : Token} {tokens : List Token} :
      keyword.kind = .string → fold keyword.text = "@mapsize" →
      Expected .parenArgs tokens bounds → Sizing (keyword :: tokens) bounds

section

variable {options : LoadOptions} {includeFile : String → Loading Unit} {tokens : List Token}
  {bounds : Token} {rest : TokenStream} {db : Database}

theorem Sizing.respelled {others : List Token} (sizing : Sizing tokens bounds)
    (alike : Alike tokens others) :
    ∃ other, Sizing others other ∧ other.text = bounds.text := by
  obtain ⟨string, folded, expected⟩ := sizing
  obtain ⟨keyword, rest, rfl, kind, text, alike⟩ := alike.of_cons
  obtain ⟨other, expected, same⟩ := expected.respelled alike
  exact ⟨other, .intro (kind.trans string) (text ▸ folded) expected, same⟩

theorem Sizing.stated {low high : Int64} (sizing : Sizing tokens bounds)
    (known : mapSize? bounds.text = some (low, high)) :
    Stated tokens (·.setMapSize low high) := by
  obtain ⟨string, folded, expected⟩ := sizing
  exact .mapSize string (.mapSize folded expected known)

theorem Sizing.loadStream_of_none (sizing : Sizing tokens bounds)
    (none : mapSize? bounds.text = none) (name : String) :
    loadStream options includeFile name (ahead tokens rest) db =
      .error ((bounds.semantic (.invalidMapSize bounds.text)).within name) db := by
  obtain ⟨string, folded, expected⟩ := sizing
  rename_i keyword tokens
  have bounded := (accepts_expect (by decide) (by decide) _ _ rest).mpr ⟨tokens, rfl, expected⟩
  have read : readDirective keyword (ahead tokens rest) =
      .error (bounds.semantic (.invalidMapSize bounds.text)) rest := by
    unfold readDirective
    simp only [folded, bind, EStateM.bind, bounded, none]
    rfl
  rw [TokenStream.ahead_cons, loadStream]
  simp only [string]
  split <;> simp_all

/-- One turn of reading directives: one of them is taken off the stream, or a line break, and
changes the database. -/
inductive Turn (options : LoadOptions) (includeFile : String → Loading Unit) :
    TokenStream × Database → TokenStream × Database → Prop
  | stated {tokens : List Token} {rest : TokenStream} {change : Database → Database}
      {db : Database} :
      Stated tokens change → Turn options includeFile (ahead tokens rest, db) (rest, change db)
  | included {keyword target : Token} {tokens : List Token} {rest : TokenStream}
      {db middle : Database} :
      Inclusion keyword tokens target →
      includeFile (options.fileName target.text) db = .ok () middle →
      Turn options includeFile (.token keyword (ahead tokens rest), db) (rest, middle)

theorem Turn.loadStream {here there : TokenStream × Database}
    (turn : Turn options includeFile here there) (name : String) :
    loadStream options includeFile name here.1 here.2 =
      loadStream options includeFile name there.1 there.2 := by
  cases turn with
  | stated stated => exact stated.loadStream _ _
  | included inclusion included => exact inclusion.loadStream included _

theorem loadStream_of_turns {here there : TokenStream × Database}
    (turns : Relation.ReflTransGen (Turn options includeFile) here there) (name : String) :
    loadStream options includeFile name here.1 here.2 =
      loadStream options includeFile name there.1 there.2 := by
  induction turns with
  | refl => rfl
  | tail _ turn ih => exact ih.trans (turn.loadStream name)

end

section

variable {arguments : String}

theorem cut_mapSize (plain : ∀ c ∈ arguments.toList, c ≠ '(' ∧ c ≠ ')') (behind : List Char) :
    Cut ("@mapsize(" ++ arguments ++ ")").toList
      [(.string, "@mapsize"), (.parenArgs, arguments)] behind := by
  let word := ['@', 'm', 'a', 'p', 's', 'i', 'z', 'e']
  let group := '(' :: (arguments.toList ++ [')'])
  have bare : ∀ c ∈ word, isBareWord c = true := List.all_eq_true.mp (by decide)
  have keyword : Lexeme word (.string, "@mapsize") (group ++ behind) :=
    .word (by simp [word]) bare (by rintro c ⟨⟩; decide)
  have given : Lexeme group (.parenArgs, String.ofList arguments.toList) behind :=
    .arguments plain
  rw [String.ofList_toList] at given
  have first : Cut word [(.string, "@mapsize")] (group ++ behind) :=
    .lexeme keyword (.inr ⟨rfl, by decide, fun opens => nomatch opens.1⟩)
  have last : Cut group [(.parenArgs, arguments)] behind :=
    .lexeme given (.inr ⟨rfl, by decide, fun opens => nomatch opens.1⟩)
  have whole : ("@mapsize(" ++ arguments ++ ")").toList = word ++ group := by
    simp [word, group]
  rw [whole]
  exact first.append last

/-- Any text without parentheses can be the arguments of a directive. -/
theorem exists_sizing (plain : ∀ c ∈ arguments.toList, c ≠ '(' ∧ c ≠ ')') (behind : String) :
    ∃ tokens bounds mark, Sizing tokens bounds ∧ bounds.text = arguments ∧
      TokenStream.ofText ("@mapsize(" ++ arguments ++ ")" ++ behind) =
        ahead tokens (Cursor.stream ⟨behind.toList, mark⟩) := by
  obtain ⟨tokens, alike, found⟩ := (cut_mapSize plain behind.toList).stream .start
  let nowhere : Span := Mark.start.to .start
  have sizing : Sizing [⟨.string, "@mapsize", nowhere⟩, ⟨.parenArgs, arguments, nowhere⟩]
      ⟨.parenArgs, arguments, nowhere⟩ :=
    .intro rfl (by decide) ⟨[], rfl, nofun, rfl⟩
  obtain ⟨bounds, sizing, same⟩ := sizing.respelled alike
  rw [← String.toList_append] at found
  exact ⟨tokens, bounds, _, sizing, same, found⟩

end

section

variable {source : FileSource} {options : LoadOptions} {arguments : String}

theorem loadText_of_sized {low high : Int64} (sized : Sized arguments low high) (name : String)
    (db : Database) :
    loadText source options name ("@mapsize(" ++ arguments ++ ")") db =
      .ok () (db.setMapSize low high) := by
  obtain ⟨tokens, bounds, mark, sizing, rfl, found⟩ := exists_sizing sized.plain ""
  rw [String.append_empty] at found
  rw [loadText, found, (sizing.stated (mapSize?_eq_some_iff.mpr sized)).loadStream]
  exact loadStream_of_loaded (Cursor.stream_nil mark ▸ .done)

theorem loadText_of_unsized (plain : ∀ c ∈ arguments.toList, c ≠ '(' ∧ c ≠ ')')
    (unsized : ∀ low high, ¬ Sized arguments low high) (behind name : String) (db : Database) :
    ∃ line column : Nat,
      loadText source options name ("@mapsize(" ++ arguments ++ ")" ++ behind) db =
        .error ⟨.semantic (.invalidMapSize arguments), some ⟨name, line, column⟩⟩ db := by
  obtain ⟨tokens, bounds, mark, sizing, rfl, found⟩ := exists_sizing plain behind
  rw [loadText, found, sizing.loadStream_of_none (mapSize?_eq_none_iff.mpr unsized)]
  exact ⟨_, _, rfl⟩

end

/-- Arguments give the size of the map exactly if they are two signed numerals of 64 bits with
blanks around them, on both sides of the first comma; so every two bounds are read as they are
printed. Wherever in a source they stand, the bounds that they give become those of the database,
and other arguments end the reading, with the database as it was. -/
theorem mapSizes_read_exactly (source : FileSource) (options : LoadOptions) (name : String) :
    (∀ arguments low high,
        mapSize? arguments = some (low, high) ↔ Sized arguments low high) ∧
      (∀ arguments low high, Printed low high arguments →
        mapSize? arguments = some (low, high)) ∧
      (∀ arguments low high, Sized arguments low high → ∀ db,
        loadText source options name ("@mapsize(" ++ arguments ++ ")") db =
          .ok () (db.setMapSize low high)) ∧
      (∀ arguments, (∀ c ∈ arguments.toList, c ≠ '(' ∧ c ≠ ')') →
        (∀ low high, ¬ Sized arguments low high) → ∀ behind db, ∃ line column : Nat,
          loadText source options name ("@mapsize(" ++ arguments ++ ")" ++ behind) db =
            .error ⟨.semantic (.invalidMapSize arguments), some ⟨name, line, column⟩⟩ db) ∧
      ∀ text db tokens bounds rest middle,
        Relation.ReflTransGen (Turn options (includeFile source options source.nesting))
          (.ofText text, db) (ahead tokens rest, middle) → Sizing tokens bounds →
        (∀ low high, Sized bounds.text low high → loadText source options name text db =
          loadStream options (includeFile source options source.nesting) name rest
            (middle.setMapSize low high)) ∧
        ((∀ low high, ¬ Sized bounds.text low high) → loadText source options name text db =
          .error ((bounds.semantic (.invalidMapSize bounds.text)).within name) middle) := by
  refine ⟨fun _ _ _ => mapSize?_eq_some_iff, fun _ _ _ printed =>
    mapSize?_eq_some_iff.mpr printed.sized, fun _ _ _ sized => loadText_of_sized sized name,
    fun _ plain unsized behind => loadText_of_unsized plain unsized behind name, ?_⟩
  intro text db tokens bounds rest middle turns sizing
  have arrived : loadText source options name text db = _ := loadStream_of_turns turns name
  rw [arrived]
  refine ⟨fun low high sized => ?_, fun unsized => ?_⟩
  · exact (sizing.stated (mapSize?_eq_some_iff.mpr sized)).loadStream rest middle
  · exact sizing.loadStream_of_none (mapSize?_eq_none_iff.mpr unsized) name

example : mapSize? " -9223372036854775808\u00a0,\n+0009223372036854775807" =
    some (Int64.minValue, Int64.maxValue) := by
  decide

namespace Beyond

/-- The upper bound of the second directive is one more than 64 bits hold. -/
def text : String := "@mapsize(-8, 8)@MapSize\n(0, 9223372036854775808)"

def first : List Token :=
  [⟨.string, "@mapsize", ⟨0, 8, 1, 1⟩⟩, ⟨.parenArgs, "-8, 8", ⟨8, 15, 1, 9⟩⟩]

def bounds : Token := ⟨.parenArgs, "0, 9223372036854775808", ⟨24, 48, 2, 1⟩⟩

def second : List Token :=
  [⟨.string, "@MapSize", ⟨15, 23, 1, 16⟩⟩, ⟨.newline, "\n", ⟨23, 24, 1, 24⟩⟩, bounds]

def rest : TokenStream := .exhausted ⟨48, 48, 2, 25⟩

def middle : Database := ⟨∅, -8, 8, []⟩

theorem ofText_text : TokenStream.ofText text = ahead first (ahead second rest) := by
  cbv

theorem turn (includeFile : String → Loading Unit) :
    Turn .standard includeFile (.ofText text, ∅) (ahead second rest, middle) := by
  have sized : Stated first (·.setMapSize (-8) 8) :=
    .mapSize rfl (.mapSize (by decide) ⟨[], rfl, nofun, rfl⟩ (by decide))
  rw [ofText_text]
  exact .stated sized

theorem sizing : Sizing second bounds :=
  .intro rfl (by decide) ⟨[_], rfl, by simp [Breaks], rfl⟩

theorem unsized : ∀ low high, ¬ Sized bounds.text low high :=
  mapSize?_eq_none_iff.mp (by decide)

/-- The least and the greatest integer of 64 bits. -/
def widest : String := " -9223372036854775808\u00a0,\n9223372036854775807"

theorem printed_widest : Printed Int64.minValue Int64.maxValue widest := by
  refine ⟨" -9223372036854775808\u00a0".toList, "\n9223372036854775807".toList, rfl,
    ⟨[' '], ['\u00a0'], rfl, ?_⟩, ⟨['\n'], [], rfl, ?_⟩⟩
  · exact List.all_eq_true.mp (by decide)
  · exact List.all_eq_true.mp (by decide)

theorem plain : ∀ c ∈ bounds.text.toList, c ≠ '(' ∧ c ≠ ')' := by
  have each : bounds.text.toList.all (fun c => c != '(' && c != ')') = true := by decide
  simpa using List.all_eq_true.mp each

end Beyond

theorem mapSizes_read_exactly_beyond :
    Printed Int64.minValue Int64.maxValue Beyond.widest ∧
      mapSize? Beyond.widest = some (Int64.minValue, Int64.maxValue) ∧
      loadText MemoryFiles.empty.source .standard "game.fgd" ("@mapsize(" ++ Beyond.widest ++ ")")
          Beyond.middle = .ok () (Beyond.middle.setMapSize Int64.minValue Int64.maxValue) ∧
      (∀ c ∈ Beyond.bounds.text.toList, c ≠ '(' ∧ c ≠ ')') ∧
      (∀ low high, ¬ Sized Beyond.bounds.text low high) ∧
      (∃ line column : Nat, loadText MemoryFiles.empty.source .standard "game.fgd"
          ("@mapsize(" ++ Beyond.bounds.text ++ ")" ++ "[") Beyond.middle =
        .error ⟨.semantic (.invalidMapSize Beyond.bounds.text),
          some ⟨"game.fgd", line, column⟩⟩ Beyond.middle) ∧
      Turn .standard (includeFile MemoryFiles.empty.source .standard
        MemoryFiles.empty.source.nesting) (.ofText Beyond.text, ∅)
        (ahead Beyond.second Beyond.rest, Beyond.middle) ∧
      Sizing Beyond.second Beyond.bounds ∧
      loadText MemoryFiles.empty.source .standard "game.fgd" Beyond.text ∅ =
        .error ⟨.semantic (.invalidMapSize "0, 9223372036854775808"),
          some ⟨"game.fgd", some 2, some 1⟩⟩ ⟨∅, -8, 8, []⟩ := by
  obtain ⟨accepted, printed, given, refused, reached⟩ :=
    mapSizes_read_exactly MemoryFiles.empty.source .standard "game.fgd"
  have widest := printed _ _ _ Beyond.printed_widest
  have turns := Relation.ReflTransGen.single (Beyond.turn
    (includeFile MemoryFiles.empty.source .standard MemoryFiles.empty.source.nesting))
  refine ⟨Beyond.printed_widest, widest, given _ _ _ ((accepted _ _ _).mp widest) _, Beyond.plain,
    Beyond.unsized, refused _ Beyond.plain Beyond.unsized _ _, Beyond.turn _, Beyond.sizing, ?_⟩
  exact (reached _ _ _ _ _ _ turns Beyond.sizing).2 Beyond.unsized

end Source
end EntitySchema
