import EntitySchema.Proofs.Grammar.BodyReaders
import Mathlib.Algebra.GroupWithZero.Nat

/-! Counting what is opened in a body. Every member accounts for one parenthesised type,
and for one opening bracket if it has a list; further tokens of these kinds can only have
ended a line. -/
namespace EntitySchema.Grammar

variable {α : Type} {kind : TokenKind} {tokens : List Token}

/-- How many tokens of a kind there are. -/
def tally (kind : TokenKind) (tokens : List Token) : Nat :=
  tokens.countP fun token => token.kind = kind

@[simp] theorem tally_nil : tally kind [] = 0 := rfl

@[simp] theorem tally_cons (token : Token) :
    tally kind (token :: tokens) = tally kind tokens + if token.kind = kind then 1 else 0 := by
  simp [tally, List.countP_cons]

@[simp] theorem tally_append (first last : List Token) :
    tally kind (first ++ last) = tally kind first + tally kind last :=
  List.countP_append

/-- The kinds that open something, and are wrongly taken for the end of a line. -/
def Opens (kind : TokenKind) : Prop := kind = .parenArgs ∨ kind = .bracketOpen

namespace Opens

variable (opens : Opens kind)

include opens

theorem tally_plain {token : Token} (plain : ¬Opens token.kind) :
    tally kind (token :: tokens) = tally kind tokens := by
  rw [tally_cons, if_neg, Nat.add_zero]
  rintro rfl
  exact plain opens

theorem tally_breaks (empty : Breaks tokens) : tally kind tokens = 0 := by
  induction tokens with
  | nil => rfl
  | cons token tokens ih =>
    have lineBreak := empty token List.mem_cons_self
    rw [opens.tally_plain (by simp [Opens, lineBreak])]
    exact ih fun other inside => empty other (List.mem_cons_of_mem _ inside)

theorem tally_expected {wanted : TokenKind} {token : Token}
    (expected : Expected wanted tokens token) :
    tally kind tokens = if wanted = kind then 1 else 0 := by
  obtain ⟨breaks, rfl, empty, rfl⟩ := expected
  simp [opens.tally_breaks empty]

theorem tally_typed {type : ValueType} (typed : Typed tokens type) :
    tally kind tokens = if .parenArgs = kind then 1 else 0 := by
  obtain ⟨token, expected, _⟩ := typed
  exact opens.tally_expected expected

theorem tally_joined {text whole : String} (joined : Joined text tokens whole) :
    tally kind tokens = 0 := by
  induction joined with
  | done => rfl
  | piece plus empty piece _ ih =>
    rw [opens.tally_plain (by simp [Opens, plus]), tally_append, opens.tally_breaks empty,
      opens.tally_plain (by simp [Opens, piece]), ih]

theorem tally_attributes {awaiting : Awaiting} {texts : List String}
    (attributes : Attributes awaiting tokens texts) : tally kind tokens = 0 := by
  induction attributes with
  | done => rfl
  | colon token _ ih => rw [opens.tally_plain (by simp [Opens, token]), ih]
  | blank token _ ih => rw [opens.tally_plain (by simp [Opens, token]), ih]
  | skip token _ ih => rw [opens.tally_plain (by simp [Opens, token]), ih]
  | text first pieces _ ih =>
    rw [opens.tally_plain (by simp [Opens, first]), tally_append, opens.tally_joined pieces, ih]

theorem tally_marked {readonly : Bool} (marked : Marked tokens readonly) :
    tally kind tokens = 0 := by
  cases marked with
  | plain => rfl
  | word string => rw [opens.tally_plain (by simp [Opens, string]), tally_nil]

/-- Up to its end, what declares a signal opens one stretch of arguments. -/
theorem tally_signalled {names types front : List Token} {name last : Token} {type : ValueType}
    {texts : List String} (named : Expected .string names name) (typed : Typed types type)
    (attributes : Attributes .separator front texts) :
    tally kind (names ++ (types ++ (front ++ [last]))) =
      (if .parenArgs = kind then 1 else 0) + if last.kind = kind then 1 else 0 := by
  rw [tally_append, tally_append, tally_append, opens.tally_expected named,
    opens.tally_typed typed, opens.tally_attributes attributes, if_neg]
  · simp
  · rintro rfl
    simp [Opens] at opens

theorem tally_described {types mark front : List Token} {type : ValueType} {readonly : Bool}
    {texts : List String} (typed : Typed types type) (marked : Marked mark readonly)
    (attributes : Attributes .separator front texts) (last : Token) :
    tally kind (types ++ (mark ++ front ++ [last])) =
      (if .parenArgs = kind then 1 else 0) + if last.kind = kind then 1 else 0 := by
  rw [tally_append, tally_append, tally_append, opens.tally_typed typed,
    opens.tally_marked marked, opens.tally_attributes attributes]
  simp

end Opens

/-- The same ends but for one kind. -/
def Without (kind : TokenKind) (ends : TokenKind → Prop) (other : TokenKind) : Prop :=
  ends other ∧ other ≠ kind

/-- Items hold at least as many tokens of a kind as their values account for, and as many
exactly if they are items in a stricter sense. -/
structure Counts (kind : TokenKind) (weight : α → Nat)
    (item strict : List Token → α → Bool → Prop) : Prop where
  least {tokens : List Token} {value : α} {closed : Bool} :
    item tokens value closed → weight value ≤ tally kind tokens
  exact {tokens : List Token} {value : α} {closed : Bool} :
    item tokens value closed → tally kind tokens = weight value → strict tokens value closed
  even {tokens : List Token} {value : α} {closed : Bool} :
    strict tokens value closed → tally kind tokens = weight value

namespace Counts

variable {weight : α → Nat} {item strict : List Token → α → Bool → Prop} {values : List α}
  (opens : Opens kind) (counts : Counts kind weight item strict)

include opens counts

theorem block_least (block : Block item tokens values) :
    (values.map weight).sum ≤ tally kind tokens := by
  induction block with
  | close bracket => simp
  | skip lineBreak _ ih => rwa [opens.tally_plain (by simp [Opens, lineBreak])]
  | more first _ ih =>
    have := counts.least first
    rw [List.map_cons, List.sum_cons, tally_append]
    omega
  | last only => simpa using counts.least only

theorem block_exact (block : Block item tokens values)
    (same : tally kind tokens = (values.map weight).sum) : Block strict tokens values := by
  induction block with
  | close bracket => exact .close bracket
  | skip lineBreak _ ih =>
    rw [opens.tally_plain (by simp [Opens, lineBreak])] at same
    exact .skip lineBreak (ih same)
  | more first others ih =>
    have := counts.least first
    have := counts.block_least opens others
    rw [List.map_cons, List.sum_cons, tally_append] at same
    exact .more (counts.exact first (by omega)) (ih (by omega))
  | last only => exact .last (counts.exact only (by simpa using same))

theorem block_even (block : Block strict tokens values) :
    tally kind tokens = (values.map weight).sum := by
  induction block with
  | close bracket => rw [opens.tally_plain (by simp [Opens, bracket])]; rfl
  | skip lineBreak _ ih => rwa [opens.tally_plain (by simp [Opens, lineBreak])]
  | more first _ ih => rw [tally_append, List.map_cons, List.sum_cons, counts.even first, ih]
  | last only => simpa using counts.even only

end Counts

variable {ends : TokenKind → Prop} {classname name : String}

theorem counts_entry (opens : Opens kind) (ends : TokenKind → Prop) (limit : Nat)
    (entry : String → List String → Except SemanticProblem α) :
    Counts kind (fun _ => 0) (Entry ends limit entry) (Entry (Without kind ends) limit entry) where
  least _ := Nat.zero_le _
  exact := by
    intro tokens new closed read same
    obtain ⟨string, attributes, some, few, ends, made⟩ := read
    refine .entry string attributes some few ⟨ends, ?_⟩ made
    rw [opens.tally_plain (by simp [Opens, string]), tally_append] at same
    rintro rfl
    simp at same
  even := by
    intro tokens new closed read
    obtain ⟨string, attributes, some, few, ends, made⟩ := read
    rw [opens.tally_plain (by simp [Opens, string]), tally_append,
      opens.tally_attributes attributes]
    simp [ends.2]

theorem Listed.exact (opens : Opens kind) {type : ValueType} {values : ValueList}
    (list : Listed ends classname type tokens values) (none : tally kind tokens = 0) :
    Listed (Without kind ends) classname type tokens values := by
  cases list with
  | flags block =>
    exact .flags ((counts_entry opens ends 2 _).block_exact opens block (by simpa))
  | choices block =>
    exact .choices ((counts_entry opens ends 1 _).block_exact opens block (by simpa))

theorem Listed.even (opens : Opens kind) {type : ValueType} {values : ValueList}
    (list : Listed (Without kind ends) classname type tokens values) : tally kind tokens = 0 := by
  cases list with
  | flags block => simpa using (counts_entry opens ends 2 _).block_even opens block
  | choices block => simpa using (counts_entry opens ends 1 _).block_even opens block

/-- How many tokens of an opening kind a member of the given type accounts for. -/
def needs (kind : TokenKind) (type : ValueType) : Nat :=
  (if .parenArgs = kind then 1 else 0) + if .bracketOpen = kind ∧ type.hasList then 1 else 0

theorem counts_signalled (opens : Opens kind) :
    Counts kind (fun signal => needs kind signal.type) (Signalled ends)
      (Signalled (Without kind ends)) := by
  constructor
  · rintro _ _ _ ⟨named, typed, plain, attributes, few, ends⟩
    rw [opens.tally_signalled named typed attributes]
    simp [needs, plain]
  · rintro _ _ _ ⟨named, typed, plain, attributes, few, ends⟩ same
    refine .signal named typed plain attributes few ⟨ends, ?_⟩
    rw [opens.tally_signalled named typed attributes] at same
    rintro rfl
    simp [needs, plain] at same
  · rintro _ _ _ ⟨named, typed, plain, attributes, few, ends⟩
    rw [opens.tally_signalled named typed attributes, if_neg ends.2]
    simp [needs, plain]

theorem tally_listed (opens : Opens kind) {types mark front opening list : List Token}
    {type : ValueType} {readonly : Bool} {texts : List String} {equals bracket : Token}
    (typed : Typed types type) (marked : Marked mark readonly)
    (attributes : Attributes .separator front texts) (equal : equals.kind = .equals)
    (opened : Expected .bracketOpen opening bracket) (hasList : type.hasList = true) :
    tally kind (types ++ (mark ++ front ++ [equals] ++ (opening ++ list))) =
      needs kind type + tally kind list := by
  have apart : TokenKind.equals ≠ kind := by
    rintro rfl
    simp [Opens] at opens
  rw [← List.append_assoc, tally_append, opens.tally_described typed marked attributes,
    tally_append, opens.tally_expected opened, equal, if_neg apart, needs, hasList]
  simp [Nat.add_assoc]

theorem counts_keyValued (opens : Opens kind) :
    Counts kind (fun keyValue => needs kind keyValue.type) (KeyValued ends classname name)
      (KeyValued (Without kind ends) classname name) := by
  constructor
  · intro tokens keyValue closed read
    cases read with
    | plain typed plain marked attributes few ends bare =>
      rw [opens.tally_described typed marked attributes]
      simp [needs, declared, plain]
    | listed typed marked attributes few equals opening list =>
      rw [tally_listed opens typed marked attributes equals opening list.hasList]
      exact Nat.le_add_right _ _
  · intro tokens keyValue closed read same
    cases read with
    | plain typed plain marked attributes few ends bare =>
      refine .plain typed plain marked attributes few ⟨ends, ?_⟩ bare
      rw [opens.tally_described typed marked attributes] at same
      rintro rfl
      simp [needs, declared, plain] at same
    | listed typed marked attributes few equals opening list =>
      rw [tally_listed opens typed marked attributes equals opening list.hasList] at same
      exact .listed typed marked attributes few equals opening
        (list.exact opens (Nat.add_eq_left.mp same))
  · intro tokens keyValue closed read
    cases read with
    | plain typed plain marked attributes few ends bare =>
      rw [opens.tally_described typed marked attributes, if_neg ends.2]
      simp [needs, declared, plain]
    | listed typed marked attributes few equals opening list =>
      rw [tally_listed opens typed marked attributes equals opening list.hasList, list.even opens]
      rfl

/-- The type of a member's values. -/
def Member.type : Member → ValueType
  | .keyValue property => property.type
  | .signal _ declared => declared.type

theorem counts_line (opens : Opens kind) :
    Counts kind (fun member => needs kind (Member.type member)) (Line ends classname)
      (Line (Without kind ends) classname) := by
  constructor
  · intro tokens member closed line
    cases line with
    | signal string _ read =>
      rw [opens.tally_plain (by simp [Opens, string])]
      exact (counts_signalled opens).least read
    | keyValue string _ read =>
      rw [opens.tally_plain (by simp [Opens, string])]
      exact (counts_keyValued opens).least read
  · intro tokens member closed line same
    cases line with
    | signal string direction read =>
      rw [opens.tally_plain (by simp [Opens, string])] at same
      exact .signal string direction ((counts_signalled opens).exact read same)
    | keyValue string direction read =>
      rw [opens.tally_plain (by simp [Opens, string])] at same
      exact .keyValue string direction ((counts_keyValued opens).exact read same)
  · intro tokens member closed line
    cases line with
    | signal string _ read =>
      rw [opens.tally_plain (by simp [Opens, string])]
      exact (counts_signalled opens).even read
    | keyValue string _ read =>
      rw [opens.tally_plain (by simp [Opens, string])]
      exact (counts_keyValued opens).even read

/-- Members that come with a list. -/
def listed (members : List Member) : Nat :=
  members.countP fun member => (Member.type member).hasList

theorem sum_needs_parenArgs (members : List Member) :
    (members.map fun member => needs .parenArgs (Member.type member)).sum = members.length := by
  simp [needs]

theorem sum_needs_bracketOpen (members : List Member) :
    (members.map fun member => needs .bracketOpen (Member.type member)).sum = listed members := by
  induction members with
  | nil => rfl
  | cons member members ih =>
    rw [List.map_cons, List.sum_cons, ih]
    simp [listed, needs, List.countP_cons, Nat.add_comm]

theorem body_endsLine_iff {members : List Member}
    (body : Body Tolerated classname tokens members) :
    Body EndsLine classname tokens members ↔
      tally .parenArgs tokens = members.length ∧ tally .bracketOpen tokens = listed members := by
  constructor
  · intro proper
    have pure : ∀ {kind}, Opens kind → Body (Without kind EndsLine) classname tokens members := by
      intro kind opens
      refine proper.mono fun other ends => ⟨ends, ?_⟩
      rintro rfl
      rcases ends with rfl | rfl <;> simp [Opens] at opens
    rw [← sum_needs_parenArgs, ← sum_needs_bracketOpen]
    exact ⟨(counts_line (.inl rfl)).block_even (.inl rfl) (pure (.inl rfl)),
      (counts_line (.inr rfl)).block_even (.inr rfl) (pure (.inr rfl))⟩
  · rintro ⟨arguments, brackets⟩
    rw [← sum_needs_parenArgs] at arguments
    rw [← sum_needs_bracketOpen] at brackets
    have first := (counts_line (.inl rfl)).block_exact (.inl rfl) body arguments
    have both := (counts_line (.inr rfl)).block_exact (.inr rfl) first brackets
    refine Body.mono ?_ both
    rintro kind ⟨⟨ends | arguments | bracket, other⟩, another⟩
    · exact ends
    · exact (other arguments).elim
    · exact (another bracket).elim

end EntitySchema.Grammar
