import EntitySchema.Grammar.Header
import EntitySchema.Proofs.Grammar.Tally

/-! Where the lines of a body end. A body has one reading only, so the tokens that ended
its lines are determined; counting what is opened in it tells whether they are the
documented ones or a member got lost in the end of another. -/
namespace EntitySchema.Grammar

open TokenStream (ahead)

variable {α : Type} {tokens : List Token}

/-- Items that begin with a string and tell by themselves where they end. -/
structure Distinct (item : List Token → α → Bool → Prop) : Prop where
  starts {tokens : List Token} {value : α} {closed : Bool} :
    item tokens value closed → ∃ word others, tokens = word :: others ∧ word.kind = .string
  apart {front first back last : List Token} {value other : α} {closed ending : Bool} :
    item front value closed → item first other ending → front ++ back = first ++ last →
    value = other ∧ closed = ending ∧ back = last

namespace Distinct

variable {item : List Token → α → Bool → Prop} {values : List α} (distinct : Distinct item)

include distinct

theorem of_close {token : Token} (bracket : token.kind = .bracketClose)
    (block : Block item (token :: tokens) values) : values = [] := by
  generalize row : token :: tokens = all at block
  cases block with
  | close _ => rfl
  | skip lineBreak _ =>
    cases row
    cases bracket.symm.trans lineBreak
  | more first _ =>
    obtain ⟨word, others, rfl, string⟩ := distinct.starts first
    cases row
    cases bracket.symm.trans string
  | last only =>
    obtain ⟨word, others, rfl, string⟩ := distinct.starts only
    cases row
    cases bracket.symm.trans string

theorem of_skip {token : Token} (lineBreak : token.kind = .newline)
    (block : Block item (token :: tokens) values) : Block item tokens values := by
  generalize row : token :: tokens = all at block
  cases block with
  | close bracket =>
    cases row
    cases lineBreak.symm.trans bracket
  | skip _ others =>
    cases row
    exact others
  | more first _ =>
    obtain ⟨word, others, rfl, string⟩ := distinct.starts first
    cases row
    cases lineBreak.symm.trans string
  | last only =>
    obtain ⟨word, others, rfl, string⟩ := distinct.starts only
    cases row
    cases lineBreak.symm.trans string

theorem of_item {front back : List Token} {value : α} {closed : Bool}
    (first : item front value closed) (block : Block item (front ++ back) values) :
    ∃ others, values = value :: others ∧
      (closed = true ∧ others = [] ∨ closed = false ∧ Block item back others) := by
  generalize row : front ++ back = all at block
  cases block with
  | close bracket =>
    obtain ⟨word, others, rfl, string⟩ := distinct.starts first
    obtain ⟨rfl, _⟩ := List.cons.inj row
    cases string.symm.trans bracket
  | skip lineBreak _ =>
    obtain ⟨word, others, rfl, string⟩ := distinct.starts first
    cases row
    cases string.symm.trans lineBreak
  | more other block =>
    obtain ⟨rfl, rfl, rfl⟩ := distinct.apart first other row
    exact ⟨_, rfl, Or.inr ⟨rfl, block⟩⟩
  | last only =>
    obtain ⟨rfl, rfl, rfl⟩ := distinct.apart first only (row.trans (List.append_nil _).symm)
    exact ⟨[], rfl, Or.inl ⟨rfl, rfl⟩⟩

/-- A row of tokens holds at most one row of items. -/
theorem block_unique {others : List α} (block : Block item tokens values)
    (again : Block item tokens others) : values = others := by
  induction block generalizing others with
  | close bracket => exact (distinct.of_close bracket again).symm
  | skip lineBreak _ ih => exact ih (distinct.of_skip lineBreak again)
  | more first _ ih =>
    obtain ⟨rest, rfl, ⟨closed, _⟩ | ⟨_, again⟩⟩ := distinct.of_item first again
    · cases closed
    · rw [ih again]
  | last only =>
    obtain ⟨rest, rfl, ⟨_, rfl⟩ | ⟨closed, _⟩⟩ :=
      distinct.of_item only (by rwa [List.append_nil] : Block item (_ ++ []) others)
    · rfl
    · cases closed

end Distinct

theorem distinct_line (classname : String) : Distinct (Line Tolerated classname) where
  starts line := by
    obtain ⟨word, others, same, string, _⟩ := readMember_of_line line (.exhausted ⟨0, 0, 0, 0⟩)
    exact ⟨word, others, same, string⟩
  apart := by
    intro front first back last value other closed ending line again same
    have stop : TokenStream := .exhausted ⟨0, 0, 0, 0⟩
    obtain ⟨word, tokens, rfl, _, read⟩ := readMember_of_line line (ahead back stop)
    obtain ⟨_, others, rfl, _, reread⟩ := readMember_of_line again (ahead last stop)
    obtain ⟨rfl, _⟩ := List.cons.inj same
    have rest : tokens ++ back = others ++ last := (List.cons.inj same).2
    rw [← TokenStream.ahead_append] at read reread
    rw [rest, reread] at read
    obtain ⟨⟨rfl, rfl⟩, left⟩ :
        (other = value ∧ ending = closed) ∧ ahead last stop = ahead back stop := by
      simpa using read
    exact ⟨rfl, rfl, (TokenStream.ahead_injective left).symm⟩

theorem Body.unique {classname : String} {members others : List Member}
    (body : Body Tolerated classname tokens members)
    (again : Body Tolerated classname tokens others) : members = others :=
  (distinct_line classname).block_unique body again

/-- Reads a whole block behind its keyword: the head, then the body. -/
def readBlock (category : Category) : Parser EntityClass := fun stream =>
  match readHead category stream with
  | .error fault rest => .error fault rest
  | .ok head middle =>
    match readBody head middle with
    | (entity, .ok () rest) => .ok entity rest
    | (_, .error fault rest) => .error fault rest

theorem readBlock_eq_ok_iff {category : Category} {stream rest : TokenStream}
    {entity : EntityClass} :
    readBlock category stream = .ok entity rest ↔
      ∃ head middle, readHead category stream = .ok head middle ∧
        readBody head middle = (entity, .ok () rest) := by
  rw [readBlock]
  cases begun : readHead category stream with
  | error fault rest => simp
  | ok head middle =>
    rcases read : readBody head middle with ⟨result, ⟨⟨⟩, after⟩ | ⟨fault, after⟩⟩
    · simp [read]
    · simp [read]

/-- A block that is read without a fault has a body with exactly one reading. Its lines
and entries end as documented if and only if there are as many parenthesised stretches
in it as members, and as many opening brackets as members with a list. -/
theorem ends_of_readBlock {category : Category} {stream rest : TokenStream}
    {entity : EntityClass} (read : readBlock category stream = .ok entity rest) :
    ∃ head tokens members, readHead category stream = .ok head (ahead tokens rest) ∧
      entity = members.foldl Member.enter head ∧
      (∀ others, Body Tolerated head.name tokens others ↔ others = members) ∧
      (Body EndsLine head.name tokens members ↔
        tally .parenArgs tokens = members.length ∧
          tally .bracketOpen tokens = listed members) := by
  obtain ⟨head, middle, begun, read⟩ := readBlock_eq_ok_iff.mp read
  obtain ⟨tokens, members, rfl, body, rfl⟩ := readBody_eq_ok_iff.mp read
  refine ⟨head, tokens, members, begun, rfl, fun others => ?_, body_endsLine_iff body⟩
  constructor
  · intro again
    exact again.unique body
  · rintro rfl
    exact body

namespace Pair

def token (kind : TokenKind) (text : String) (start column : Nat) : Token :=
  ⟨kind, text, ⟨start, start + text.utf8ByteSize, 1, column⟩⟩

/-- The head ` = x [` of a class. -/
def head : List Token :=
  [token .equals "=" 1 2, token .string "x" 3 4, token .bracketOpen "[" 5 6]

def nameA : Token := token .string "a" 7 8

def typeA : Token := ⟨.parenArgs, "string", ⟨8, 16, 1, 9⟩⟩

def nameB : Token := token .string "b" 17 18

def typeB : Token := ⟨.parenArgs, "integer", ⟨18, 27, 1, 19⟩⟩
def lineBreak : Token := ⟨.newline, "\n", ⟨27, 28, 1, 28⟩⟩

def bracket : Token := ⟨.bracketClose, "]", ⟨29, 30, 2, 2⟩⟩

/-- The body ` a(string) b(integer)`, with what stands between its members, and a closing
bracket on the next line. -/
def body (between : List Token) : List Token :=
  [nameA, typeA] ++ between ++ [nameB, typeB, lineBreak, bracket]

def stop : TokenStream := .exhausted ⟨30, 30, 2, 3⟩

/-- The class before its members are read. -/
def empty : EntityClass := { EntityClass.plain .point "" with name := trimmed "x" }

theorem readHead_eq (between : List Token) :
    readHead .point (ahead (head ++ body between) stop) = .ok empty (ahead (body between) stop) :=
  rfl

theorem not_direction {name : String} (other : fold name ≠ "input" ∧ fold name ≠ "output")
    (direction : Direction) : fold name ≠ directionWord direction := by
  cases direction
  · exact other.1
  · exact other.2

/-- Without a line break the second name is taken for a mark, and its type for the end of
the line. -/
theorem crowded (classname : String) :
    Body Tolerated classname (body [])
      [.keyValue (declared "a" .string (isReadonly "b") [])] := by
  have typed : Typed [typeA] .string := ⟨_, ⟨[], rfl, nofun, rfl⟩, by decide⟩
  have read : KeyValued Tolerated classname "a" ([typeA] ++ ([nameB] ++ [] ++ [typeB]))
      (declared "a" .string (isReadonly "b") []) false :=
    .plain typed rfl (.word rfl) .done (by decide) (Or.inr (Or.inl rfl)) nofun
  have line : Line Tolerated classname (nameA :: ([typeA] ++ ([nameB] ++ [] ++ [typeB])))
      (.keyValue (declared "a" .string (isReadonly "b") [])) false :=
    .keyValue rfl (not_direction (by decide)) read
  have rest : Body Tolerated classname [lineBreak, bracket] [] := .skip rfl (.close rfl)
  have whole := Block.more line rest
  exact whole

/-- Each member on a line of its own. -/
theorem apart (classname : String) :
    Body Tolerated classname (body [lineBreak])
      [.keyValue (declared "a" .string false []), .keyValue (declared "b" .integer false [])] := by
  have line : ∀ (name type : Token) (valueType : ValueType), name.kind = .string →
      fold name.text ≠ "input" ∧ fold name.text ≠ "output" → type.kind = .parenArgs →
      ValueType.ofKeyword? type.text = some valueType → valueType.hasList = false →
      Line Tolerated classname (name :: ([type] ++ ([] ++ [] ++ [lineBreak])))
        (.keyValue (declared name.text valueType false [])) false := by
    intro name type valueType string other arguments known plain
    refine .keyValue string (not_direction other) (.plain ⟨type, ⟨[], rfl, nofun, arguments⟩, known⟩
      plain .plain .done (by decide) ?_ fun _ => ?_)
    · exact Or.inl (Or.inl rfl)
    · exact Or.inl rfl
  have first := line nameA typeA .string rfl (by decide) rfl (by decide) rfl
  have second := line nameB typeB .integer rfl (by decide) rfl (by decide) rfl
  exact .more first (.more second (.close rfl))

theorem readBlock_of_body {between : List Token} {members : List Member}
    (derived : Body Tolerated empty.name (body between) members) :
    readBlock .point (ahead (head ++ body between) stop) =
      .ok (members.foldl Member.enter empty) stop :=
  readBlock_eq_ok_iff.mpr ⟨empty, _, readHead_eq between, readBody_of_body derived rfl stop⟩

end Pair

theorem ends_of_readBlock_pair :
    ∃ entity, readBlock .point (ahead (Pair.head ++ Pair.body [Pair.lineBreak]) Pair.stop) =
        .ok entity Pair.stop ∧
      ∃ head tokens members,
        readHead .point (ahead (Pair.head ++ Pair.body [Pair.lineBreak]) Pair.stop) =
          .ok head (ahead tokens Pair.stop) ∧
        entity = members.foldl Member.enter head ∧
        (∀ others, Body Tolerated head.name tokens others ↔ others = members) ∧
        (Body EndsLine head.name tokens members ↔
          tally .parenArgs tokens = members.length ∧
            tally .bracketOpen tokens = listed members) := by
  have read := Pair.readBlock_of_body (Pair.apart _)
  exact ⟨_, read, ends_of_readBlock read⟩

/-- Two members on one line are read without a fault, and the second is lost: it is not
true that lines only end as documented. -/
theorem not_endsLine_of_readBlock :
    ¬∀ (category : Category) (stream rest : TokenStream) (entity : EntityClass),
      readBlock category stream = .ok entity rest →
      ∃ head tokens members, readHead category stream = .ok head (ahead tokens rest) ∧
        Body EndsLine head.name tokens members ∧ entity = members.foldl Member.enter head := by
  intro documented
  obtain ⟨head, tokens, members, begun, body, _⟩ :=
    documented _ _ _ _ (Pair.readBlock_of_body (Pair.crowded _))
  rw [Pair.readHead_eq] at begun
  obtain ⟨rfl, same⟩ :
      Pair.empty = head ∧ ahead (Pair.body []) Pair.stop = ahead tokens Pair.stop := by
    simpa using begun
  obtain rfl := TokenStream.ahead_injective same
  have tolerated := Body.mono (fun _ => tolerated_of_endsLine) body
  obtain rfl := tolerated.unique (Pair.crowded _)
  have counted := ((body_endsLine_iff tolerated).mp body).1
  exact absurd counted (by decide)

end EntitySchema.Grammar
