import EntitySchema.Proofs.Grammar.HeadReaders
import EntitySchema.Proofs.Grammar.Sentences

/-! Line breaks that are repeated. A line break stands where any number of them may, or it ends
a line or an entry, and then further ones stand between that and the next. So repeating the line
breaks of a sentence leaves what it stands for as it is. -/
namespace EntitySchema.Grammar

/-- The same row with further line breaks behind line breaks. -/
inductive Spaced : List Token → List Token → Prop
  | done : Spaced [] []
  | token {token : Token} {breaks tokens others : List Token} :
      Breaks breaks → token.kind = .newline ∨ breaks = [] → Spaced tokens others →
      Spaced (token :: tokens) (token :: (breaks ++ others))

namespace Spaced

variable {token : Token} {tokens others front back first last : List Token}

theorem refl (tokens : List Token) : Spaced tokens tokens := by
  induction tokens with
  | nil => exact .done
  | cons token tokens ih => exact .token (nofun : Breaks []) (Or.inr rfl) ih

theorem append (before : Spaced front first) (behind : Spaced back last) :
    Spaced (front ++ back) (first ++ last) := by
  induction before with
  | done => exact behind
  | token empty between _ ih =>
    rw [List.cons_append, List.cons_append, List.append_assoc]
    exact .token empty between ih

theorem of_nil (spaced : Spaced [] others) : others = [] := by
  cases spaced
  rfl

theorem eq_nil (spaced : Spaced tokens []) : tokens = [] := by
  cases spaced
  rfl

theorem of_cons (spaced : Spaced (token :: tokens) others) :
    ∃ breaks rest, others = token :: (breaks ++ rest) ∧ Breaks breaks ∧ Spaced tokens rest := by
  cases spaced with
  | token empty _ spaced => exact ⟨_, _, rfl, empty, spaced⟩

/-- Nothing comes in between behind other tokens. -/
theorem of_solid (spaced : Spaced (token :: tokens) others) (solid : token.kind ≠ .newline) :
    ∃ rest, others = token :: rest ∧ Spaced tokens rest := by
  cases spaced with
  | token _ between spaced =>
    obtain rfl := between.resolve_left solid
    exact ⟨_, rfl, spaced⟩

theorem of_sole (spaced : Spaced [token] others) (solid : token.kind ≠ .newline) :
    others = [token] := by
  obtain ⟨rest, rfl, behind⟩ := spaced.of_solid solid
  rw [behind.of_nil]

/-- Behind the last token of a row, unless that is a closing bracket. -/
theorem of_last (spaced : Spaced [token] others) :
    ∃ breaks, others = token :: breaks ∧ Breaks breaks ∧
      (decide (token.kind = .bracketClose) = true → breaks = []) := by
  cases spaced with
  | @token _ breaks _ rest empty between behind =>
    obtain rfl := behind.of_nil
    refine ⟨breaks, by rw [List.append_nil], empty, fun bracket => between.resolve_left ?_⟩
    rw [of_decide_eq_true bracket]
    decide

theorem of_append (spaced : Spaced (front ++ back) others) :
    ∃ first last, others = first ++ last ∧ Spaced front first ∧ Spaced back last := by
  induction front generalizing others with
  | nil => exact ⟨[], others, rfl, .done, spaced⟩
  | cons token front ih =>
    cases spaced with
    | @token _ breaks _ rest empty between spaced =>
      obtain ⟨first, last, rfl, before, behind⟩ := ih spaced
      exact ⟨token :: (breaks ++ first), last, by simp, .token empty between before, behind⟩

end Spaced

variable {α : Type} {tokens others : List Token}

/-- What may have one line break more in front of it may have any number of them. -/
theorem Breaks.absorbed {P : List Token → Prop} {breaks : List Token} (empty : Breaks breaks)
    (skip : ∀ token tokens, token.kind = .newline → P tokens → P (token :: tokens))
    (rest : P tokens) : P (breaks ++ tokens) := by
  induction breaks with
  | nil => exact rest
  | cons token breaks ih =>
    obtain ⟨lineBreak, others⟩ := List.forall_mem_cons.mp empty
    exact skip token _ lineBreak (ih others)

theorem Breaks.spaced (empty : Breaks tokens) (spaced : Spaced tokens others) :
    Breaks others := by
  induction spaced with
  | done => exact empty
  | token between _ _ ih =>
    obtain ⟨lineBreak, others⟩ := List.forall_mem_cons.mp empty
    exact List.forall_mem_cons.mpr
      ⟨lineBreak, List.forall_mem_append.mpr ⟨between, ih others⟩⟩

theorem Expected.spaced {kind : TokenKind} {token : Token} (expected : Expected kind tokens token)
    (spaced : Spaced tokens others) (solid : kind ≠ .newline) : Expected kind others token := by
  obtain ⟨breaks, rfl, empty, fits⟩ := expected
  obtain ⟨front, back, rfl, before, last⟩ := spaced.of_append
  obtain rfl := last.of_sole (fits ▸ solid)
  exact ⟨front, rfl, empty.spaced before, fits⟩

theorem Joined.spaced {text whole : String} (joined : Joined text tokens whole)
    (spaced : Spaced tokens others) : Joined text others whole := by
  induction joined generalizing others with
  | done =>
    obtain rfl := spaced.of_nil
    exact .done _
  | piece plus empty string _ ih =>
    obtain ⟨rest, rfl, behind⟩ := spaced.of_solid (by simp [plus])
    obtain ⟨breaks, rest, rfl, between, last⟩ := behind.of_append
    obtain ⟨more, rfl, further⟩ := last.of_solid (by simp [string])
    exact .piece plus (empty.spaced between) string (ih further)

/-- Line breaks between attributes stand behind colons and plus signs only. -/
theorem Attributes.spaced {awaiting : Awaiting} {texts : List String}
    (attributes : Attributes awaiting tokens texts) (spaced : Spaced tokens others) :
    Attributes awaiting others texts := by
  induction attributes generalizing others with
  | done =>
    obtain rfl := spaced.of_nil
    exact .done
  | colon colon _ ih =>
    obtain ⟨rest, rfl, behind⟩ := spaced.of_solid (by simp [colon])
    exact .colon colon (ih behind)
  | blank colon _ ih =>
    obtain ⟨rest, rfl, behind⟩ := spaced.of_solid (by simp [colon])
    exact .blank colon (ih behind)
  | @skip _ _ texts lineBreak _ ih =>
    obtain ⟨breaks, rest, rfl, empty, behind⟩ := spaced.of_cons
    exact .skip lineBreak
      (empty.absorbed (P := (Attributes .attribute · texts)) (fun _ _ => .skip) (ih behind))
  | text string joined _ ih =>
    obtain ⟨rest, rfl, behind⟩ := spaced.of_solid (by simp [string])
    obtain ⟨pieces, rest, rfl, same, last⟩ := behind.of_append
    exact .text string (joined.spaced same) (ih last)

/-- An item with line breaks behind it, which are left to what follows. Where the item brings
the end of its block along, nothing follows. -/
def Trailed (item : List Token → α → Bool → Prop) (tokens : List Token) (value : α)
    (closed : Bool) : Prop :=
  ∃ front breaks, tokens = front ++ breaks ∧ Breaks breaks ∧ item front value closed ∧
    (closed = true → breaks = [])

/-- Items do not mind further line breaks, apart from those behind their ends. -/
def Lenient (item : List Token → α → Bool → Prop) : Prop :=
  ∀ tokens others value closed, item tokens value closed → Spaced tokens others →
    Trailed item others value closed

theorem Block.spaced {item : List Token → α → Bool → Prop} {values : List α}
    (block : Block item tokens values) (spaced : Spaced tokens others) (each : Lenient item) :
    Block item others values := by
  induction block generalizing others with
  | close bracket =>
    obtain rfl := spaced.of_sole (by simp [bracket])
    exact .close bracket
  | @skip _ _ values lineBreak _ ih =>
    obtain ⟨breaks, rest, rfl, empty, behind⟩ := spaced.of_cons
    exact .skip lineBreak
      (empty.absorbed (P := (Block item · values)) (fun _ _ => .skip) (ih behind))
  | @more _ _ _ values first _ ih =>
    obtain ⟨front, back, rfl, same, behind⟩ := spaced.of_append
    obtain ⟨front, breaks, rfl, empty, first, -⟩ := each _ _ _ _ first same
    rw [List.append_assoc]
    exact .more first
      (empty.absorbed (P := (Block item · values)) (fun _ _ => .skip) (ih behind))
  | last only =>
    obtain ⟨front, breaks, rfl, -, only, closed⟩ := each _ _ _ _ only spaced
    rw [closed rfl, List.append_nil]
    exact .last only

variable {ends : TokenKind → Prop} {classname : String}

theorem lenient_entry {limit : Nat} {entry : String → List String → Except SemanticProblem α} :
    Lenient (Entry ends limit entry) := by
  rintro _ others new _ ⟨string, attributes, some, few, fits, made⟩ spaced
  obtain ⟨rest, rfl, behind⟩ := spaced.of_solid (by simp [string])
  obtain ⟨front, back, rfl, same, last⟩ := behind.of_append
  obtain ⟨breaks, rfl, empty, closed⟩ := last.of_last
  exact ⟨_ :: (front ++ [_]), breaks, by simp, empty,
    .entry string (attributes.spaced same) some few fits made, closed⟩

theorem Listed.spaced {type : ValueType} {values : ValueList}
    (listed : Listed ends classname type tokens values) (spaced : Spaced tokens others) :
    Listed ends classname type others values := by
  cases listed with
  | flags block => exact .flags (block.spaced spaced lenient_entry)
  | choices block => exact .choices (block.spaced spaced lenient_entry)

theorem Typed.spaced {type : ValueType} (typed : Typed tokens type)
    (spaced : Spaced tokens others) : Typed others type := by
  obtain ⟨token, expected, known⟩ := typed
  exact ⟨token, expected.spaced spaced (by decide), known⟩

theorem Marked.spaced {readonly : Bool} (marked : Marked tokens readonly)
    (spaced : Spaced tokens others) : Marked others readonly := by
  cases marked with
  | plain =>
    obtain rfl := spaced.of_nil
    exact .plain
  | word string =>
    obtain rfl := spaced.of_sole (by simp [string])
    exact .word string

theorem lenient_signalled : Lenient (Signalled ends) := by
  rintro _ others signal _ ⟨named, typed, plain, attributes, few, fits⟩ spaced
  obtain ⟨names, rest, rfl, same, behind⟩ := spaced.of_append
  obtain ⟨types, rest, rfl, known, further⟩ := behind.of_append
  obtain ⟨front, back, rfl, described, last⟩ := further.of_append
  obtain ⟨breaks, rfl, empty, closed⟩ := last.of_last
  exact ⟨names ++ (types ++ (front ++ [_])), breaks, by simp, empty,
    .signal (named.spaced same (by decide)) (typed.spaced known) plain
      (attributes.spaced described) few fits, closed⟩

theorem lenient_keyValued (name : String) : Lenient (KeyValued ends classname name) := by
  intro tokens others keyValue closed read spaced
  cases read with
  | plain typed plain marked attributes few fits bare =>
    obtain ⟨types, rest, rfl, known, behind⟩ := spaced.of_append
    obtain ⟨front, back, rfl, described, last⟩ := behind.of_append
    obtain ⟨mark, fields, rfl, word, texts⟩ := described.of_append
    obtain ⟨breaks, rfl, empty, closed⟩ := last.of_last
    refine ⟨types ++ (mark ++ fields ++ [_]), breaks, by simp, empty,
      .plain (typed.spaced known) plain (marked.spaced word) (attributes.spaced texts) few fits
        fun none => bare ?_, closed⟩
    obtain ⟨rfl, rfl⟩ := List.append_eq_nil_iff.mp none
    rw [word.eq_nil, texts.eq_nil, List.append_nil]
  | listed typed marked attributes few equals opens list =>
    obtain ⟨types, rest, rfl, known, behind⟩ := spaced.of_append
    obtain ⟨front, rest, rfl, described, further⟩ := behind.of_append
    obtain ⟨opening, entries, rfl, opened, entered⟩ := further.of_append
    obtain ⟨front, sign, rfl, fronts, last⟩ := described.of_append
    obtain ⟨mark, fields, rfl, word, texts⟩ := fronts.of_append
    obtain rfl := last.of_sole (by simp [equals])
    -- the list ends with its own bracket, so nothing is left over
    exact ⟨_, [], (List.append_nil _).symm, nofun,
      .listed (typed.spaced known) (marked.spaced word) (attributes.spaced texts) few equals
        (opens.spaced opened (by decide)) (list.spaced entered), nofun⟩

theorem lenient_line : Lenient (Line ends classname) := by
  intro tokens others member closed line spaced
  cases line with
  | signal string direction read =>
    obtain ⟨rest, rfl, behind⟩ := spaced.of_solid (by simp [string])
    obtain ⟨front, breaks, rfl, empty, read, last⟩ := lenient_signalled _ _ _ _ read behind
    exact ⟨_ :: front, breaks, rfl, empty, .signal string direction read, last⟩
  | keyValue string direction read =>
    obtain ⟨rest, rfl, behind⟩ := spaced.of_solid (by simp [string])
    obtain ⟨front, breaks, rfl, empty, read, last⟩ := lenient_keyValued _ _ _ _ _ read behind
    exact ⟨_ :: front, breaks, rfl, empty, .keyValue string direction read, last⟩

theorem Body.spaced {members : List Member} (body : Body ends classname tokens members)
    (spaced : Spaced tokens others) : Body ends classname others members :=
  Block.spaced body spaced lenient_line

theorem Helped.spaced {entity result : EntityClass} {pending : Option HelperKind}
    (helped : Helped entity pending tokens result) (spaced : Spaced tokens others) :
    Helped entity pending others result := by
  induction helped generalizing others with
  | @skip entity result pending _ _ lineBreak _ ih =>
    obtain ⟨breaks, rest, rfl, empty, behind⟩ := spaced.of_cons
    exact .skip lineBreak
      (empty.absorbed (P := (Helped entity pending · result)) (fun _ _ => .skip) (ih behind))
  | kind string known _ ih =>
    obtain ⟨rest, rfl, behind⟩ := spaced.of_solid (by simp [string])
    exact .kind string known (ih behind)
  | arguments arguments _ ih =>
    obtain ⟨rest, rfl, behind⟩ := spaced.of_solid (by simp [arguments])
    exact .arguments arguments (ih behind)
  | close equals =>
    obtain rfl := spaced.of_sole (by simp [equals])
    exact .close equals

theorem Explained.spaced {pieces : Option (List String)} {joining : Bool} {text : String}
    (explained : Explained pieces joining tokens text) (spaced : Spaced tokens others) :
    Explained pieces joining others text := by
  induction explained generalizing others with
  | @skip pieces joining _ _ text lineBreak _ ih =>
    obtain ⟨breaks, rest, rfl, empty, behind⟩ := spaced.of_cons
    exact .skip lineBreak
      (empty.absorbed (P := (Explained pieces joining · text)) (fun _ _ => .skip) (ih behind))
  | colon colon _ ih =>
    obtain ⟨rest, rfl, behind⟩ := spaced.of_solid (by simp [colon])
    exact .colon colon (ih behind)
  | first string _ ih =>
    obtain ⟨rest, rfl, behind⟩ := spaced.of_solid (by simp [string])
    exact .first string (ih behind)
  | plus plus _ ih =>
    obtain ⟨rest, rfl, behind⟩ := spaced.of_solid (by simp [plus])
    exact .plus plus (ih behind)
  | piece string _ ih =>
    obtain ⟨rest, rfl, behind⟩ := spaced.of_solid (by simp [string])
    exact .piece string (ih behind)
  | close bracket =>
    obtain rfl := spaced.of_sole (by simp [bracket])
    exact .close bracket

theorem Headed.spaced {category : Category} {head : EntityClass}
    (headed : Headed category tokens head) (spaced : Spaced tokens others) :
    Headed category others head := by
  obtain ⟨helped, named, explained⟩ := headed
  obtain ⟨helpers, rest, rfl, same, behind⟩ := spaced.of_append
  obtain ⟨names, description, rfl, called, last⟩ := behind.of_append
  exact .head (helped.spaced same) (named.spaced called (by decide)) (explained.spaced last)

end EntitySchema.Grammar
