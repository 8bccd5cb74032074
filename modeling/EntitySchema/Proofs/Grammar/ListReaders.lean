import EntitySchema.Proofs.Grammar.AttributeReaders
import EntitySchema.Proofs.WellFormed

/-! The readers of value lists accept the entries up to the closing bracket, where any
token that ends a row of attributes, except an equals sign, ends an entry. -/
namespace EntitySchema.Grammar

open TokenStream (ahead)

variable {α : Type}

theorem accepts_readFields (key value : String) (limit : Nat) :
    Accepts (readFields key value limit) fun tokens fields =>
      Fields .separator tokens fields ∧ fields.2.kind ≠ .equals ∧ fields.1 ≠ [] ∧
        fields.1.length ≤ limit := by
  intro stream fields rest
  rw [readFields, (accepts_readAttributes (by decide)).bind_eq_ok_iff]
  simp only [guard_eq_ok_iff, pure_eq_ok_iff, List.isEmpty_iff, Nat.not_lt]
  constructor
  · rintro ⟨tokens, _, _, rfl, read, unequal, some, few, rfl, rfl⟩
    exact ⟨tokens, rfl, read, unequal, some, few⟩
  · rintro ⟨tokens, rfl, read, unequal, some, few⟩
    exact ⟨tokens, fields, rest, rfl, read, unequal, some, few, rfl, rfl⟩

theorem entry_of_fields {limit : Nat} {entry : String → List String → Except SemanticProblem α}
    {value last : Token} {tokens : List Token} {texts : List String} {new : α}
    (string : value.kind = .string)
    (read : Fields .separator tokens (texts, last) ∧ last.kind ≠ .equals ∧ texts ≠ [] ∧
      texts.length ≤ limit) (made : entry value.text texts = .ok new) :
    Entry Tolerated limit entry (value :: tokens) new (last.kind = .bracketClose) := by
  obtain ⟨⟨attributes, closes⟩, unequal, some, few⟩ := read
  exact .entry string attributes some few (tolerated_iff.mpr ⟨closes, unequal⟩) made

theorem block_of_readEntries {key : String} {limit : Nat}
    {entry : String → List String → Except SemanticProblem α} {stream rest : TokenStream}
    {held values : List α} (read : readEntries key limit entry held stream = .ok values rest) :
    ∃ tokens new, stream = ahead tokens rest ∧ Block (Entry Tolerated limit entry) tokens new ∧
      values = held.reverse ++ new := by
  fun_induction readEntries with
  | case1 held token more lineBreak ih =>
    obtain ⟨tokens, new, rfl, block, rfl⟩ := ih read
    exact ⟨token :: tokens, new, rfl, .skip lineBreak block, rfl⟩
  | case2 held token more bracket =>
    cases read
    exact ⟨[token], [], rfl, .close bracket, (List.append_nil _).symm⟩
  | case3 held token more string fields last after found new made bracket =>
    cases read
    obtain ⟨_, rfl, fields⟩ := (accepts_readFields key token.text limit _ _ _).mp found
    have only := entry_of_fields string fields made
    rw [decide_eq_true bracket] at only
    exact ⟨_, [new], rfl, .last only, by simp⟩
  | case4 held token more string fields last after found new made bracket ih =>
    obtain ⟨tokens, others, rfl, block, rfl⟩ := ih read
    obtain ⟨_, rfl, fields⟩ := (accepts_readFields key token.text limit _ _ _).mp found
    have first := entry_of_fields string fields made
    rw [decide_eq_false bracket] at first
    exact ⟨_, new :: others, by simp, .more first block, by simp⟩
  | _ => cases read

/-- An entry is read in one go, from its value to its end. -/
theorem readFields_of_entry (key : String) {limit : Nat}
    {entry : String → List String → Except SemanticProblem α} {tokens : List Token} {new : α}
    {closed : Bool} (read : Entry Tolerated limit entry tokens new closed)
    (rest : TokenStream) :
    ∃ value fields last others, tokens = value :: others ∧ value.kind = .string ∧
      readFields key value.text limit (ahead others rest) = .ok (fields, last) rest ∧
      entry value.text fields = .ok new ∧ closed = (last.kind = .bracketClose : Bool) := by
  obtain @⟨value, last, front, texts, _, string, attributes, some, few, ends, made⟩ := read
  obtain ⟨closes, unequal⟩ := tolerated_iff.mp ends
  exact ⟨value, texts, last, _, rfl, string, (accepts_readFields _ _ _ _ _ _).mpr
    ⟨_, rfl, .intro attributes closes, unequal, some, few⟩, made, rfl⟩

theorem readEntries_token {key : String} {limit : Nat}
    {entry : String → List String → Except SemanticProblem α} {value last : Token}
    {texts : List String} {new : α} {stream after : TokenStream} (string : value.kind = .string)
    (found : readFields key value.text limit stream = .ok (texts, last) after)
    (made : entry value.text texts = .ok new) (held : List α) :
    readEntries key limit entry held (.token value stream) =
      if last.kind = .bracketClose then .ok (new :: held).reverse after
      else readEntries key limit entry (new :: held) after := by
  rw [readEntries]
  simp only [string]
  split
  · rename_i read
    rw [found] at read
    cases read
    simp only [made]
  · rename_i read
    rw [found] at read
    cases read

/-- An entry whose attributes make no sense ends the list. -/
theorem readEntries_of_refused {key : String} {limit : Nat}
    {entry : String → List String → Except SemanticProblem α} {value last : Token}
    {texts : List String} {problem : SemanticProblem} {stream after : TokenStream}
    (string : value.kind = .string)
    (found : readFields key value.text limit stream = .ok (texts, last) after)
    (refused : entry value.text texts = .error problem) (held : List α) :
    readEntries key limit entry held (.token value stream) =
      .error (last.semantic problem) after := by
  rw [readEntries]
  simp only [string]
  split
  · rename_i read
    rw [found] at read
    cases read
    simp only [refused]
  · rename_i read
    rw [found] at read
    cases read

/-- So does an entry whose attributes cannot be read. -/
theorem readEntries_of_failed {key : String} {limit : Nat}
    {entry : String → List String → Except SemanticProblem α} {value : Token} {fault : Fault}
    {stream after : TokenStream} (string : value.kind = .string)
    (failed : readFields key value.text limit stream = .error fault after) (held : List α) :
    readEntries key limit entry held (.token value stream) = .error fault after := by
  rw [readEntries]
  simp only [string]
  split
  · rename_i read
    rw [failed] at read
    cases read
  · rename_i read
    rw [failed] at read
    cases read
    rfl

theorem readEntries_of_block {key : String} {limit : Nat}
    {entry : String → List String → Except SemanticProblem α} {tokens : List Token}
    {new : List α} (block : Block (Entry Tolerated limit entry) tokens new) (held : List α)
    (rest : TokenStream) :
    readEntries key limit entry held (ahead tokens rest) = .ok (held.reverse ++ new) rest := by
  induction block generalizing held with
  | close bracket => simp [readEntries, bracket]
  | skip lineBreak _ ih =>
    rw [TokenStream.ahead_cons, readEntries]
    simp only [lineBreak]
    exact ih held
  | @more front back value values first _ ih =>
    obtain ⟨word, fields, last, others, rfl, string, found, made, closed⟩ :=
      readFields_of_entry key first (ahead back rest)
    have goesOn : last.kind ≠ .bracketClose := of_decide_eq_false closed.symm
    rw [TokenStream.ahead_append, TokenStream.ahead_cons, readEntries_token string found made,
      if_neg goesOn, ih]
    simp
  | last only =>
    obtain ⟨word, fields, last, others, rfl, string, found, made, closed⟩ :=
      readFields_of_entry key only rest
    have bracket : last.kind = .bracketClose := of_decide_eq_true closed.symm
    rw [TokenStream.ahead_cons, readEntries_token string found made, if_pos bracket]
    simp

theorem accepts_readEntries (key : String) (limit : Nat)
    (entry : String → List String → Except SemanticProblem α) :
    Accepts (readEntries key limit entry []) (Block (Entry Tolerated limit entry)) := by
  intro stream values rest
  constructor
  · intro read
    obtain ⟨tokens, _, rfl, block, rfl⟩ := block_of_readEntries read
    exact ⟨tokens, rfl, block⟩
  · rintro ⟨tokens, rfl, block⟩
    exact readEntries_of_block block [] rest

/-- Behind the opening bracket, which may stand on a line of its own. -/
def Bracketed (classname : String) (type : ValueType) (tokens : List Token)
    (values : ValueList) : Prop :=
  ∃ opening bracket list, tokens = opening ++ list ∧ Expected .bracketOpen opening bracket ∧
    Listed Tolerated classname type list values

theorem accepts_bracketed {classname : String} {type : ValueType} {entries : Parser (List α)}
    {item : List Token → α → Bool → Prop} {make : List α → ValueList}
    (accepts : Accepts entries (Block item))
    (listed : ∀ list values, Listed Tolerated classname type list values ↔
      ∃ items, Block item list items ∧ values = make items) :
    Accepts (do
      let _ ← TokenStream.expect .bracketOpen
      return make (← entries)) (Bracketed classname type) := by
  intro stream values rest
  rw [(accepts_expect (by decide) (by decide)).bind_eq_ok_iff]
  simp only [accepts.bind_eq_ok_iff, pure_eq_ok_iff]
  constructor
  · rintro ⟨opening, bracket, _, rfl, opens, tokens, items, _, rfl, block, rfl, rfl⟩
    exact ⟨opening ++ tokens, by simp, opening, bracket, tokens, rfl, opens,
      (listed _ _).mpr ⟨items, block, rfl⟩⟩
  · rintro ⟨_, rfl, opening, bracket, tokens, rfl, opens, list⟩
    obtain ⟨items, block, rfl⟩ := (listed _ _).mp list
    exact ⟨opening, bracket, _, by simp, opens, tokens, items, rest, rfl, block, rfl, rfl⟩

theorem accepts_readValueList (classname key : String) {type : ValueType}
    (list : type.hasList = true) :
    Accepts (readValueList classname key type) (Bracketed classname type) := by
  rcases type.hasList_cases with rfl | rfl | plain
  · apply accepts_bracketed (accepts_readEntries key 2 _)
    intro list values
    constructor
    · intro listed
      cases listed with
      | flags block => exact ⟨_, block, rfl⟩
    · rintro ⟨items, block, rfl⟩
      exact .flags block
  · apply accepts_bracketed (accepts_readEntries key 1 _)
    intro list values
    constructor
    · intro listed
      cases listed with
      | choices block => exact ⟨_, block, rfl⟩
    · rintro ⟨items, block, rfl⟩
      exact .choices block
  · rw [plain] at list
    cases list

end EntitySchema.Grammar
