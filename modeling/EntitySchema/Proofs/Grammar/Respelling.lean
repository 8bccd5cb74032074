import EntitySchema.Proofs.Grammar.HeadReaders
import EntitySchema.Proofs.Grammar.Sentences
import EntitySchema.Proofs.Lexemes

/-! The grammar goes by kinds and texts: what a row of tokens stands for does not depend on
where it is written. -/
namespace EntitySchema

/-- Rows of tokens that differ in their spans at most. -/
def Alike (tokens others : List Token) : Prop :=
  others.map Token.spelling = tokens.map Token.spelling

namespace Alike

theorem of_nil {others : List Token} (alike : Alike [] others) : others = [] :=
  List.map_eq_nil_iff.mp alike

theorem of_cons {token : Token} {tokens others : List Token}
    (alike : Alike (token :: tokens) others) :
    ∃ other rest, others = other :: rest ∧ other.kind = token.kind ∧ other.text = token.text ∧
      Alike tokens rest := by
  obtain ⟨other, rest, rfl, same, alike⟩ := List.map_eq_cons_iff.mp alike
  exact ⟨other, rest, rfl, congrArg Prod.fst same, congrArg Prod.snd same, alike⟩

theorem of_singleton {token : Token} {others : List Token} (alike : Alike [token] others) :
    ∃ other, others = [other] ∧ other.kind = token.kind ∧ other.text = token.text := by
  obtain ⟨other, rest, rfl, kind, text, alike⟩ := alike.of_cons
  obtain rfl := alike.of_nil
  exact ⟨other, rfl, kind, text⟩

theorem of_append {front back others : List Token} (alike : Alike (front ++ back) others) :
    ∃ first last, others = first ++ last ∧ Alike front first ∧ Alike back last := by
  rw [Alike, List.map_append] at alike
  exact List.map_eq_append_iff.mp alike

end Alike

namespace Grammar

variable {α : Type} {tokens others : List Token}

theorem Breaks.respelled (breaks : Breaks tokens) (alike : Alike tokens others) :
    Breaks others := by
  induction tokens generalizing others with
  | nil =>
    obtain rfl := alike.of_nil
    exact nofun
  | cons token tokens ih =>
    obtain ⟨other, others, rfl, kind, _, alike⟩ := alike.of_cons
    obtain ⟨first, rest⟩ := List.forall_mem_cons.mp breaks
    exact List.forall_mem_cons.mpr ⟨kind.trans first, ih rest alike⟩

theorem Expected.respelled {kind : TokenKind} {token : Token}
    (expected : Expected kind tokens token) (alike : Alike tokens others) :
    ∃ other, Expected kind others other ∧ other.text = token.text := by
  obtain ⟨breaks, rfl, empty, fits⟩ := expected
  obtain ⟨front, back, rfl, before, last⟩ := alike.of_append
  obtain ⟨other, rfl, same, text⟩ := last.of_singleton
  exact ⟨other, ⟨front, rfl, empty.respelled before, same.trans fits⟩, text⟩

theorem Joined.respelled {text whole : String} (joined : Joined text tokens whole)
    (alike : Alike tokens others) : Joined text others whole := by
  induction joined generalizing others with
  | done =>
    obtain rfl := alike.of_nil
    exact .done _
  | piece plus empty string _ ih =>
    obtain ⟨sign, rest, rfl, kind, _, alike⟩ := alike.of_cons
    obtain ⟨breaks, rest, rfl, between, alike⟩ := alike.of_append
    obtain ⟨piece, more, rfl, same, text, alike⟩ := alike.of_cons
    rw [← text] at ih
    exact .piece (kind.trans plus) (empty.respelled between) (same.trans string) (ih alike)

theorem Attributes.respelled {awaiting : Awaiting} {texts : List String}
    (attributes : Attributes awaiting tokens texts) (alike : Alike tokens others) :
    Attributes awaiting others texts := by
  induction attributes generalizing others with
  | done =>
    obtain rfl := alike.of_nil
    exact .done
  | colon colon _ ih =>
    obtain ⟨other, rest, rfl, kind, _, alike⟩ := alike.of_cons
    exact .colon (kind.trans colon) (ih alike)
  | blank colon _ ih =>
    obtain ⟨other, rest, rfl, kind, _, alike⟩ := alike.of_cons
    exact .blank (kind.trans colon) (ih alike)
  | skip lineBreak _ ih =>
    obtain ⟨other, rest, rfl, kind, _, alike⟩ := alike.of_cons
    exact .skip (kind.trans lineBreak) (ih alike)
  | text string joined _ ih =>
    obtain ⟨first, rest, rfl, kind, text, alike⟩ := alike.of_cons
    obtain ⟨pieces, rest, rfl, same, alike⟩ := alike.of_append
    rw [← text] at joined
    exact .text (kind.trans string) (joined.respelled same) (ih alike)

theorem Block.respelled {item : List Token → α → Bool → Prop} {values : List α}
    (block : Block item tokens values) (alike : Alike tokens others)
    (each : ∀ tokens others value closed, item tokens value closed → Alike tokens others →
      item others value closed) : Block item others values := by
  induction block generalizing others with
  | close bracket =>
    obtain ⟨other, rfl, kind, _⟩ := alike.of_singleton
    exact .close (kind.trans bracket)
  | skip lineBreak _ ih =>
    obtain ⟨other, rest, rfl, kind, _, alike⟩ := alike.of_cons
    exact .skip (kind.trans lineBreak) (ih alike)
  | more first _ ih =>
    obtain ⟨front, back, rfl, same, alike⟩ := alike.of_append
    exact .more (each _ _ _ _ first same) (ih alike)
  | last only => exact .last (each _ _ _ _ only alike)

variable {ends : TokenKind → Prop}

theorem Entry.respelled {limit : Nat} {entry : String → List String → Except SemanticProblem α}
    {new : α} {closed : Bool} (read : Entry ends limit entry tokens new closed)
    (alike : Alike tokens others) : Entry ends limit entry others new closed := by
  obtain ⟨string, attributes, some, few, fits, made⟩ := read
  obtain ⟨value, rest, rfl, kind, text, alike⟩ := alike.of_cons
  obtain ⟨front, back, rfl, same, alike⟩ := alike.of_append
  obtain ⟨last, rfl, final, _⟩ := alike.of_singleton
  rw [← text] at made
  rw [← final] at fits ⊢
  exact .entry (kind.trans string) (attributes.respelled same) some few fits made

theorem Listed.respelled {classname : String} {type : ValueType} {values : ValueList}
    (listed : Listed ends classname type tokens values) (alike : Alike tokens others) :
    Listed ends classname type others values := by
  cases listed with
  | flags block => exact .flags (block.respelled alike fun _ _ _ _ => Entry.respelled)
  | choices block => exact .choices (block.respelled alike fun _ _ _ _ => Entry.respelled)

theorem Typed.respelled {type : ValueType} (typed : Typed tokens type)
    (alike : Alike tokens others) : Typed others type := by
  obtain ⟨token, expected, known⟩ := typed
  obtain ⟨other, expected, text⟩ := expected.respelled alike
  rw [← text] at known
  exact ⟨other, expected, known⟩

theorem Marked.respelled {readonly : Bool} (marked : Marked tokens readonly)
    (alike : Alike tokens others) : Marked others readonly := by
  cases marked with
  | plain =>
    obtain rfl := alike.of_nil
    exact .plain
  | word string =>
    obtain ⟨other, rfl, kind, text⟩ := alike.of_singleton
    rw [← text]
    exact .word (kind.trans string)

theorem Signalled.respelled {signal : Signal} {closed : Bool}
    (read : Signalled ends tokens signal closed) (alike : Alike tokens others) :
    Signalled ends others signal closed := by
  obtain ⟨named, typed, plain, attributes, few, fits⟩ := read
  obtain ⟨names, rest, rfl, same, alike⟩ := alike.of_append
  obtain ⟨name, named, text⟩ := named.respelled same
  obtain ⟨types, rest, rfl, same, alike⟩ := alike.of_append
  obtain ⟨front, back, rfl, described, alike⟩ := alike.of_append
  obtain ⟨last, rfl, final, _⟩ := alike.of_singleton
  rw [← text]
  rw [← final] at fits ⊢
  exact .signal named (typed.respelled same) plain (attributes.respelled described) few fits

theorem KeyValued.respelled {classname name : String} {keyValue : KeyValue} {closed : Bool}
    (read : KeyValued ends classname name tokens keyValue closed) (alike : Alike tokens others) :
    KeyValued ends classname name others keyValue closed := by
  cases read with
  | plain typed plain marked attributes few fits bare =>
    obtain ⟨types, rest, rfl, same, alike⟩ := alike.of_append
    obtain ⟨front, back, rfl, described, alike⟩ := alike.of_append
    obtain ⟨last, rfl, final, _⟩ := alike.of_singleton
    obtain ⟨mark, fields, rfl, word, texts⟩ := described.of_append
    rw [← final] at fits bare ⊢
    refine .plain (typed.respelled same) plain (marked.respelled word)
      (attributes.respelled texts) few fits fun none => bare ?_
    rw [none] at described
    exact List.map_eq_nil_iff.mp described.symm
  | listed typed marked attributes few equals opens list =>
    obtain ⟨types, rest, rfl, same, alike⟩ := alike.of_append
    obtain ⟨front, rest, rfl, described, behind⟩ := alike.of_append
    obtain ⟨opening, entries, rfl, opened, entered⟩ := behind.of_append
    obtain ⟨bracket, opens, _⟩ := opens.respelled opened
    obtain ⟨front, sign, rfl, fronts, last⟩ := described.of_append
    obtain ⟨equal, rfl, kind, _⟩ := last.of_singleton
    obtain ⟨mark, fields, rfl, word, texts⟩ := fronts.of_append
    exact .listed (typed.respelled same) (marked.respelled word)
      (attributes.respelled texts) few (kind.trans equals) opens (list.respelled entered)

theorem Line.respelled {classname : String} {member : Member} {closed : Bool}
    (line : Line ends classname tokens member closed) (alike : Alike tokens others) :
    Line ends classname others member closed := by
  cases line with
  | signal string direction read =>
    obtain ⟨word, rest, rfl, kind, text, alike⟩ := alike.of_cons
    rw [← text] at direction
    exact .signal (kind.trans string) direction (read.respelled alike)
  | keyValue string direction read =>
    obtain ⟨word, rest, rfl, kind, text, alike⟩ := alike.of_cons
    rw [← text] at direction read
    exact .keyValue (kind.trans string) direction (read.respelled alike)

theorem Body.respelled {classname : String} {members : List Member}
    (body : Body ends classname tokens members) (alike : Alike tokens others) :
    Body ends classname others members :=
  Block.respelled body alike fun _ _ _ _ => Line.respelled

theorem Helped.respelled {entity result : EntityClass} {pending : Option HelperKind}
    (helped : Helped entity pending tokens result) (alike : Alike tokens others) :
    Helped entity pending others result := by
  induction helped generalizing others with
  | skip lineBreak _ ih =>
    obtain ⟨other, rest, rfl, kind, _, alike⟩ := alike.of_cons
    exact .skip (kind.trans lineBreak) (ih alike)
  | kind string known _ ih =>
    obtain ⟨other, rest, rfl, kind, text, alike⟩ := alike.of_cons
    rw [← text] at known
    exact .kind (kind.trans string) known (ih alike)
  | arguments arguments _ ih =>
    obtain ⟨other, rest, rfl, kind, text, alike⟩ := alike.of_cons
    rw [← text] at ih
    exact .arguments (kind.trans arguments) (ih alike)
  | close equals =>
    obtain ⟨other, rfl, kind, _⟩ := alike.of_singleton
    exact .close (kind.trans equals)

theorem Explained.respelled {pieces : Option (List String)} {joining : Bool} {text : String}
    (explained : Explained pieces joining tokens text) (alike : Alike tokens others) :
    Explained pieces joining others text := by
  induction explained generalizing others with
  | skip lineBreak _ ih =>
    obtain ⟨other, rest, rfl, kind, _, alike⟩ := alike.of_cons
    exact .skip (kind.trans lineBreak) (ih alike)
  | colon colon _ ih =>
    obtain ⟨other, rest, rfl, kind, _, alike⟩ := alike.of_cons
    exact .colon (kind.trans colon) (ih alike)
  | first string _ ih =>
    obtain ⟨other, rest, rfl, kind, text, alike⟩ := alike.of_cons
    rw [← text] at ih
    exact .first (kind.trans string) (ih alike)
  | plus plus _ ih =>
    obtain ⟨other, rest, rfl, kind, _, alike⟩ := alike.of_cons
    exact .plus (kind.trans plus) (ih alike)
  | piece string _ ih =>
    obtain ⟨other, rest, rfl, kind, text, alike⟩ := alike.of_cons
    rw [← text] at ih
    exact .piece (kind.trans string) (ih alike)
  | close bracket =>
    obtain ⟨other, rfl, kind, _⟩ := alike.of_singleton
    exact .close (kind.trans bracket)

theorem Headed.respelled {category : Category} {head : EntityClass}
    (headed : Headed category tokens head) (alike : Alike tokens others) :
    Headed category others head := by
  obtain ⟨helped, named, explained⟩ := headed
  obtain ⟨helpers, rest, rfl, same, alike⟩ := alike.of_append
  obtain ⟨names, description, rfl, called, alike⟩ := alike.of_append
  obtain ⟨name, named, text⟩ := named.respelled called
  rw [← text]
  exact .head (helped.respelled same) named (explained.respelled alike)

end Grammar
end EntitySchema
