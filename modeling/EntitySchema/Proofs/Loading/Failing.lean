import EntitySchema.Proofs.Editing
import EntitySchema.Proofs.Grammar.BodyReaders
import EntitySchema.Proofs.Loading.Moving
import EntitySchema.Proofs.OrderedMap

/-! Bodies that fail. A line is read to its end before its member is entered, so a class keeps
the members of the lines in front of the one at fault, and nothing of that one. The rest of the
database stays as it was. -/
namespace EntitySchema

namespace Grammar

open TokenStream (ahead)

/-- Complete lines, in a class of the given name, with line breaks between them: the members that
they declare. None of them closes the body. -/
inductive Lines (ends : TokenKind → Prop) (classname : String) :
    List Token → List Member → Prop
  | done : Lines ends classname [] []
  | skip {token : Token} {tokens : List Token} {members : List Member} :
      token.kind = .newline → Lines ends classname tokens members →
      Lines ends classname (token :: tokens) members
  | more {front back : List Token} {member : Member} {members : List Member} :
      Line ends classname front member false → Lines ends classname back members →
      Lines ends classname (front ++ back) (member :: members)

/-- Where lines come to a stop: there is no line break, no closing bracket and no complete line
next. -/
structure Stuck (ends : TokenKind → Prop) (classname : String) (stream : TokenStream) : Prop where
  solid : ∀ token rest, stream = .token token rest →
    token.kind ≠ .newline ∧ token.kind ≠ .bracketClose
  incomplete : ∀ tokens rest member closed, stream = ahead tokens rest →
    ¬ Line ends classname tokens member closed

/-- Lines become a body with a closing bracket behind them. -/
theorem Lines.body {ends : TokenKind → Prop} {classname : String} {tokens : List Token}
    {members : List Member} (lines : Lines ends classname tokens members) {bracket : Token}
    (closes : bracket.kind = .bracketClose) :
    Body ends classname (tokens ++ [bracket]) members := by
  induction lines with
  | done => exact .close closes
  | skip lineBreak _ ih => exact .skip lineBreak ih
  | more line _ ih =>
    rw [List.append_assoc]
    exact .more line ih

/-- Only words begin lines. -/
theorem Stuck.of_kind {classname : String} {stream : TokenStream}
    (other : ∀ token rest, stream = .token token rest → token.kind ≠ .newline ∧
      token.kind ≠ .bracketClose ∧ token.kind ≠ .string) : Stuck Tolerated classname stream where
  solid token rest same := ⟨(other token rest same).1, (other token rest same).2.1⟩
  incomplete tokens rest member closed same line := by
    obtain ⟨word, others, rfl, string⟩ := line.exists_word
    exact (other word _ same).2.2 string

/-- A line that the reader of members refuses is not a line. -/
theorem Stuck.of_failed {classname : String} {word : Token} {stream after : TokenStream}
    {fault : Fault} (string : word.kind = .string)
    (failed : readMember classname word.text stream = .error fault after) :
    Stuck Tolerated classname (.token word stream) where
  solid token rest same := by
    cases same
    simp [string]
  incomplete tokens rest member closed same line := by
    obtain ⟨other, others, rfl, -, found⟩ := readMember_of_line line rest
    cases same
    cases failed.symm.trans found

theorem Member.rest_enter (entity : EntityClass) (member : Member) :
    ∃ keyValues inputs outputs,
      member.enter entity = { entity with keyValues, inputs, outputs } := by
  cases member with
  | keyValue property => exact ⟨_, _, _, rfl⟩
  | signal direction signal => cases direction <;> exact ⟨_, _, _, rfl⟩

theorem Member.rest_foldl_enter (entity : EntityClass) (members : List Member) :
    ∃ keyValues inputs outputs,
      members.foldl Member.enter entity = { entity with keyValues, inputs, outputs } := by
  induction members generalizing entity with
  | nil => exact ⟨_, _, _, rfl⟩
  | cons member members ih =>
    obtain ⟨_, _, _, entered⟩ := member.rest_enter entity
    obtain ⟨_, _, _, rest⟩ := ih (member.enter entity)
    rw [List.foldl_cons, rest, entered]
    exact ⟨_, _, _, rfl⟩

/-- A body that fails is read line by line up to the line at fault. The induction follows the
reader, which enters a member only once it has its line. -/
theorem exists_lines_of_readBody {entity part : EntityClass} {stream left : TokenStream}
    {fault : Fault} (failed : readBody entity stream = (part, .error fault left)) :
    ∃ tokens members behind, stream = ahead tokens behind ∧
      Lines Tolerated entity.name tokens members ∧ part = members.foldl Member.enter entity ∧
      Stuck Tolerated entity.name behind ∧
      readBody part behind = (part, .error fault left) := by
  fun_induction readBody entity stream with
  | case1 entity token rest bracket => cases failed
  | case2 entity token rest lineBreak ih =>
    obtain ⟨tokens, members, behind, rfl, lines, entered, stuck⟩ := ih failed
    exact ⟨token :: tokens, members, behind, rfl, .skip lineBreak lines, entered, stuck⟩
  | case3 entity token rest string member after found => cases failed
  | case4 entity token rest string member closed after found goesOn ih =>
    obtain ⟨back, members, behind, rfl, lines, entered, stuck⟩ := ih failed
    obtain ⟨front, rfl, line⟩ := (accepts_readMember _ string _ _ _).mp found
    rw [Bool.not_eq_true] at goesOn
    rw [goesOn] at line
    rw [Member.name_enter] at lines stuck
    exact ⟨token :: front ++ back, member :: members, behind, by simp, .more line lines,
      entered, stuck⟩
  | case5 entity token rest string fault after refused =>
    cases failed
    exact ⟨[], [], _, rfl, .done, rfl, .of_failed string refused,
      readBody_of_failed string refused⟩
  | case6 entity token rest last =>
    cases failed
    refine ⟨[], [], _, rfl, .done, rfl, .of_kind ?_, ?_⟩
    · rintro _ _ ⟨⟩
      simp [last]
    · rw [readBody]
      simp only [last]
  | case7 entity token rest notBracket notLineBreak notString notLast =>
    cases failed
    refine ⟨[], [], _, rfl, .done, rfl, .of_kind ?_, ?_⟩
    · rintro _ _ ⟨⟩
      exact ⟨notLineBreak, notBracket, notString⟩
    · rw [readBody]
      split <;> simp_all
  | case8 entity span =>
    cases failed
    refine ⟨[], [], _, rfl, .done, rfl, .of_kind ?_, by rw [readBody]⟩
    rintro _ _ ⟨⟩
  | case9 entity fault resume =>
    cases failed
    refine ⟨[], [], _, rfl, .done, rfl, .of_kind ?_, by rw [readBody]⟩
    rintro _ _ ⟨⟩

end Grammar

namespace Source

open Grammar
open TokenStream (ahead)

/-- A block whose body fails is the last thing read: its class is defined by then. -/
theorem loadStream_of_failed {options : LoadOptions} {includeFile : String → Loading Unit}
    {keyword : Token} {rest stream left : TokenStream} {head part : EntityClass} {fault : Fault}
    (string : keyword.kind = .string)
    (read : readDirective keyword rest = .ok (.classHead head) stream)
    (failed : readBody head stream = (part, .error fault left)) (name : String) (db : Database) :
    loadStream options includeFile name (.token keyword rest) db =
      .error (fault.within name) (db.define part) := by
  rw [loadStream_eq, advance_of_string string, read]
  simp only [failed]

/-- A body that fails leaves the class that the complete lines in front of the failing one make,
as though a closing bracket came behind them. With a block that fails, all other classes of the
database stay what they were and where they were, and so do its map bounds and its files. -/
theorem readBody_keeps_lines {entity part : EntityClass} {stream left : TokenStream}
    {fault : Fault} (failed : readBody entity stream = (part, .error fault left)) :
    (∃ tokens members behind, stream = ahead tokens behind ∧
      Lines Tolerated entity.name tokens members ∧ Stuck Tolerated entity.name behind ∧
      readBody part behind = (part, .error fault left) ∧
      ∀ bracket more, bracket.kind = .bracketClose →
        readBody entity (ahead tokens (.token bracket more)) = (part, .ok () more)) ∧
      part = { entity with
        keyValues := part.keyValues, inputs := part.inputs, outputs := part.outputs } ∧
      ∀ options includeFile name keyword rest db, keyword.kind = .string →
        readDirective keyword rest = .ok (.classHead entity) stream →
        ∃ after, loadStream options includeFile name (.token keyword rest) db =
            .error (fault.within name) after ∧
          after = { db with classes := after.classes } ∧
          db.classes.keys <+: after.classes.keys ∧
          ∀ key, after.classes.get? key =
            if key = fold entity.name then some part else db.classes.get? key := by
  obtain ⟨tokens, members, behind, rfl, lines, rfl, stuck, fails⟩ :=
    exists_lines_of_readBody failed
  obtain ⟨keyValues, inputs, outputs, entered⟩ := Member.rest_foldl_enter entity members
  refine ⟨⟨tokens, members, behind, rfl, lines, stuck, fails, fun bracket more closes => ?_⟩, ?_,
    fun options includeFile name keyword rest db string read => ?_⟩
  · have read := readBody_of_body (lines.body closes) rfl more
    rwa [TokenStream.ahead_append] at read
  · rw [entered]
  · refine ⟨_, loadStream_of_failed string read failed name db, rfl, db.keys_prefix_define _,
      fun key => ?_⟩
    rw [Database.define, OrderedMap.get?_insert, entered]

namespace UnknownType

def head : EntityClass := .plain .point "light"

def nope : Token := ⟨.parenArgs, "nope", ⟨16, 22, 2, 2⟩⟩

def left : TokenStream := .token ⟨.bracketClose, "]", ⟨22, 23, 2, 8⟩⟩ (.exhausted ⟨23, 23, 2, 9⟩)

/-- The second line has a type that there is none of. -/
def second : TokenStream := .token ⟨.string, "x", ⟨15, 16, 2, 1⟩⟩ (.token nope left)

def first : TokenStream :=
  ahead [⟨.parenArgs, "integer", ⟨5, 14, 1, 6⟩⟩, ⟨.newline, "\n", ⟨14, 15, 1, 15⟩⟩] second

def style : Token := ⟨.string, "style", ⟨0, 5, 1, 1⟩⟩

def part : EntityClass := head.addKeyValue (declared "style" .integer false [])

theorem readBody_second :
    readBody part second = (part, .error (nope.semantic (.unknownValueType "nope")) left) := by
  have string : (⟨.string, "x", ⟨15, 16, 2, 1⟩⟩ : Token).kind = .string := rfl
  exact readBody_of_failed string rfl

theorem readBody_first : readBody head (.token style first) =
    (part, .error (nope.semantic (.unknownValueType "nope")) left) := by
  have string : style.kind = .string := rfl
  have found : readMember head.name style.text first =
      .ok (.keyValue (declared "style" .integer false []), false) second := rfl
  rw [readBody_token string found, if_neg Bool.false_ne_true]
  exact readBody_second

end UnknownType

theorem readBody_keeps_lines_unknownType :
    readBody UnknownType.head (.token UnknownType.style UnknownType.first) =
        (UnknownType.part,
          .error (UnknownType.nope.semantic (.unknownValueType "nope")) UnknownType.left) ∧
      ∃ tokens members behind,
        .token UnknownType.style UnknownType.first = ahead tokens behind ∧
        Lines Tolerated UnknownType.head.name tokens members ∧
        Stuck Tolerated UnknownType.head.name behind ∧
        readBody UnknownType.part behind = (UnknownType.part,
          .error (UnknownType.nope.semantic (.unknownValueType "nope")) UnknownType.left) ∧
        ∀ bracket more, bracket.kind = .bracketClose →
          readBody UnknownType.head (ahead tokens (.token bracket more)) =
            (UnknownType.part, .ok () more) :=
  ⟨UnknownType.readBody_first, (readBody_keeps_lines UnknownType.readBody_first).1⟩

end Source
end EntitySchema
