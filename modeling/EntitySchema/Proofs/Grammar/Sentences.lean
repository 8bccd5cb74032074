import EntitySchema.Grammar.Body
import EntitySchema.Proofs.Grammar.Accepting

/-! The grammar of the body of a class block, written out as rows of tokens: attributes,
value lists, member lines and bodies. Which tokens may end a line without a list, or an
entry of a list, is left open. -/
namespace EntitySchema.Grammar

/-- What is documented to end a line or an entry. -/
def EndsLine (kind : TokenKind) : Prop := kind = .newline ∨ kind = .bracketClose

/-- What the readers take for the end of a line or an entry. -/
def Tolerated (kind : TokenKind) : Prop :=
  EndsLine kind ∨ kind = .parenArgs ∨ kind = .bracketOpen

theorem tolerated_of_endsLine {kind : TokenKind} (ends : EndsLine kind) : Tolerated kind :=
  Or.inl ends

/-- Strings joined by plus signs to the text in front of them. -/
inductive Joined : String → List Token → String → Prop
  | done (text : String) : Joined text [] text
  | piece {text whole : String} {plus piece : Token} {breaks more : List Token} :
      plus.kind = .plus → Breaks breaks → piece.kind = .string →
      Joined (text ++ piece.text) more whole →
      Joined text (plus :: (breaks ++ piece :: more)) whole

/-- Attributes with a colon before each. Behind a colon there may be line breaks, and
another colon leaves the attribute empty. -/
inductive Attributes : Awaiting → List Token → List String → Prop
  | done : Attributes .separator [] []
  | colon {token : Token} {tokens : List Token} {texts : List String} :
      token.kind = .colon → Attributes .attribute tokens texts →
      Attributes .separator (token :: tokens) texts
  | blank {token : Token} {tokens : List Token} {texts : List String} :
      token.kind = .colon → Attributes .attribute tokens texts →
      Attributes .attribute (token :: tokens) ("" :: texts)
  | skip {token : Token} {tokens : List Token} {texts : List String} :
      token.kind = .newline → Attributes .attribute tokens texts →
      Attributes .attribute (token :: tokens) texts
  | text {first : Token} {joined tokens : List Token} {whole : String} {texts : List String} :
      first.kind = .string → Joined first.text joined whole →
      Attributes .separator tokens texts →
      Attributes .attribute (first :: (joined ++ tokens)) (whole :: texts)

variable {α β : Type}

/-- Items up to a closing bracket, with line breaks between them. An item may bring
the closing bracket along as its own end. -/
inductive Block (item : List Token → α → Bool → Prop) : List Token → List α → Prop
  | close {token : Token} : token.kind = .bracketClose → Block item [token] []
  | skip {token : Token} {tokens : List Token} {values : List α} :
      token.kind = .newline → Block item tokens values → Block item (token :: tokens) values
  | more {front back : List Token} {value : α} {values : List α} :
      item front value false → Block item back values →
      Block item (front ++ back) (value :: values)
  | last {tokens : List Token} {value : α} : item tokens value true → Block item tokens [value]

theorem Block.mono {item other : List Token → α → Bool → Prop}
    (weaker : ∀ tokens value closed, item tokens value closed → other tokens value closed)
    {tokens : List Token} {values : List α} (block : Block item tokens values) :
    Block other tokens values := by
  induction block with
  | close closes => exact .close closes
  | skip lineBreak _ ih => exact .skip lineBreak ih
  | more first _ ih => exact .more (weaker _ _ _ first) ih
  | last only => exact .last (weaker _ _ _ only)

/-- An entry of a value list: a value and its attributes. -/
inductive Entry (ends : TokenKind → Prop) (limit : Nat)
    (entry : String → List String → Except SemanticProblem α) : List Token → α → Bool → Prop
  | entry {value last : Token} {front : List Token} {texts : List String} {new : α} :
      value.kind = .string → Attributes .separator front texts → texts ≠ [] →
      texts.length ≤ limit → ends last.kind → entry value.text texts = .ok new →
      Entry ends limit entry (value :: (front ++ [last])) new (last.kind = .bracketClose)

/-- The entries of a value list of the given type, in a class of the given name. -/
inductive Listed (ends : TokenKind → Prop) (classname : String) :
    ValueType → List Token → ValueList → Prop
  | flags {tokens : List Token} {entries : List FlagEntry} :
      Block (Entry ends 2 (flagEntry classname)) tokens entries →
      Listed ends classname .flags tokens (.flags entries)
  | choices {tokens : List Token} {entries : List Choice} :
      Block (Entry ends 1 choice) tokens entries →
      Listed ends classname .choices tokens (.choices entries)

theorem Listed.hasList {ends : TokenKind → Prop} {classname : String} {type : ValueType}
    {tokens : List Token} {values : ValueList} (list : Listed ends classname type tokens values) :
    type.hasList = true := by
  cases list with
  | flags _ => rfl
  | choices _ => rfl

/-- A parenthesised type. -/
def Typed (tokens : List Token) (type : ValueType) : Prop :=
  ∃ token, Expected .parenArgs tokens token ∧ ValueType.ofKeyword? token.text = some type

/-- At most one word, which may mark a keyvalue as read-only. -/
inductive Marked : List Token → Bool → Prop
  | plain : Marked [] false
  | word {token : Token} : token.kind = .string → Marked [token] (isReadonly token.text)

/-- A keyvalue without a list, from its attributes. -/
def declared (name : String) (type : ValueType) (readonly : Bool) (texts : List String) :
    KeyValue :=
  { name, type, readonly, displayName := texts[0]?.getD name, initial := texts[1]?.getD ""
    description := texts[2]?.getD "", values := none }

/-- The word at the start of a line that declares a signal. -/
def directionWord : Direction → String
  | .input => "input"
  | .output => "output"

/-- What follows the word of a line that declares a signal. -/
inductive Signalled (ends : TokenKind → Prop) : List Token → Signal → Bool → Prop
  | signal {name last : Token} {names types front : List Token} {type : ValueType}
      {texts : List String} :
      Expected .string names name → Typed types type → type.hasList = false →
      Attributes .separator front texts → texts.length ≤ 1 → ends last.kind →
      Signalled ends (names ++ (types ++ (front ++ [last]))) ⟨name.text, type, texts.headD ""⟩
        (last.kind = .bracketClose)

/-- What follows the name of a keyvalue, in a class of the given name. The end of a
keyvalue with neither mark nor attributes is never left open. -/
inductive KeyValued (ends : TokenKind → Prop) (classname name : String) :
    List Token → KeyValue → Bool → Prop
  | plain {last : Token} {types mark front : List Token} {type : ValueType} {readonly : Bool}
      {texts : List String} :
      Typed types type → type.hasList = false → Marked mark readonly →
      Attributes .separator front texts → texts.length ≤ 3 → ends last.kind →
      (mark ++ front = [] → EndsLine last.kind) →
      KeyValued ends classname name (types ++ (mark ++ front ++ [last]))
        (declared name type readonly texts) (last.kind = .bracketClose)
  | listed {equals bracket : Token} {types mark front opening list : List Token}
      {type : ValueType} {readonly : Bool} {texts : List String} {values : ValueList} :
      Typed types type → Marked mark readonly → Attributes .separator front texts →
      texts.length ≤ 3 → equals.kind = .equals → Expected .bracketOpen opening bracket →
      Listed ends classname type list values →
      KeyValued ends classname name (types ++ (mark ++ front ++ [equals] ++ (opening ++ list)))
        { declared name type readonly texts with values := some values } false

/-- A line that declares a member of a class of the given name. -/
inductive Line (ends : TokenKind → Prop) (classname : String) :
    List Token → Member → Bool → Prop
  | signal {word : Token} {tokens : List Token} {direction : Direction} {signal : Signal}
      {closed : Bool} :
      word.kind = .string → fold word.text = directionWord direction →
      Signalled ends tokens signal closed →
      Line ends classname (word :: tokens) (.signal direction signal) closed
  | keyValue {word : Token} {tokens : List Token} {keyValue : KeyValue} {closed : Bool} :
      word.kind = .string → (∀ direction, fold word.text ≠ directionWord direction) →
      KeyValued ends classname word.text tokens keyValue closed →
      Line ends classname (word :: tokens) (.keyValue keyValue) closed

/-- The body of a class of the given name: the members it declares, in order. -/
def Body (ends : TokenKind → Prop) (classname : String) : List Token → List Member → Prop :=
  Block (Line ends classname)

/-- A row of tokens whose last one is a closing bracket. -/
def Closed (tokens : List Token) : Prop :=
  ∃ front last, tokens = front ++ [last] ∧ last.kind = .bracketClose

theorem Closed.append (front : List Token) {back : List Token} (closed : Closed back) :
    Closed (front ++ back) := by
  obtain ⟨tokens, last, rfl, bracket⟩ := closed
  exact ⟨front ++ tokens, last, (List.append_assoc ..).symm, bracket⟩

theorem Block.closed {item : List Token → α → Bool → Prop} {tokens : List Token}
    {values : List α} (block : Block item tokens values)
    (each : ∀ tokens value, item tokens value true → Closed tokens) : Closed tokens := by
  induction block with
  | @close token bracket => exact ⟨[], token, rfl, bracket⟩
  | @skip token tokens values _ _ ih => exact ih.append [token]
  | @more front back value values _ _ ih => exact ih.append front
  | last only => exact each _ _ only

theorem Line.closed {ends : TokenKind → Prop} {classname : String} {tokens : List Token}
    {member : Member} (line : Line ends classname tokens member true) : Closed tokens := by
  generalize closing : true = closed at line
  cases line with
  | @signal word _ _ _ _ _ _ read =>
    obtain @⟨name, last, names, types, front, type, texts, _, _, _, _, _, _⟩ := read
    refine Closed.append [word] (Closed.append names (Closed.append types ⟨front, last, rfl, ?_⟩))
    exact of_decide_eq_true closing.symm
  | @keyValue word _ _ _ _ _ read =>
    cases read with
    | @plain last types mark front type readonly texts =>
      refine Closed.append [word] (Closed.append types ⟨mark ++ front, last, rfl, ?_⟩)
      exact of_decide_eq_true closing.symm
    | listed => cases closing

theorem Body.closed {ends : TokenKind → Prop} {classname : String} {tokens : List Token}
    {members : List Member} (body : Body ends classname tokens members) : Closed tokens :=
  Block.closed body fun _ _ => Line.closed

section

variable {strict loose : TokenKind → Prop} (weaker : ∀ kind, strict kind → loose kind)

include weaker

theorem Entry.mono {limit : Nat} {entry : String → List String → Except SemanticProblem α}
    {tokens : List Token} {value : α} {closed : Bool}
    (read : Entry strict limit entry tokens value closed) :
    Entry loose limit entry tokens value closed := by
  obtain ⟨word, fields, some, few, ends, made⟩ := read
  exact ⟨word, fields, some, few, weaker _ ends, made⟩

theorem Listed.mono {classname : String} {type : ValueType} {tokens : List Token}
    {values : ValueList} (list : Listed strict classname type tokens values) :
    Listed loose classname type tokens values := by
  cases list with
  | flags entries => exact .flags (entries.mono fun _ _ _ => Entry.mono weaker)
  | choices entries => exact .choices (entries.mono fun _ _ _ => Entry.mono weaker)

theorem Signalled.mono {tokens : List Token} {signal : Signal} {closed : Bool}
    (read : Signalled strict tokens signal closed) : Signalled loose tokens signal closed := by
  obtain ⟨named, typed, plain, attributes, few, ends⟩ := read
  exact .signal named typed plain attributes few (weaker _ ends)

theorem KeyValued.mono {classname name : String} {tokens : List Token} {keyValue : KeyValue}
    {closed : Bool} (read : KeyValued strict classname name tokens keyValue closed) :
    KeyValued loose classname name tokens keyValue closed := by
  cases read with
  | plain typed plain mark attributes few ends bare =>
    exact .plain typed plain mark attributes few (weaker _ ends) bare
  | listed typed mark attributes few equals opening list =>
    exact .listed typed mark attributes few equals opening (list.mono weaker)

theorem Line.mono {classname : String} {tokens : List Token} {member : Member} {closed : Bool}
    (line : Line strict classname tokens member closed) :
    Line loose classname tokens member closed := by
  cases line with
  | signal word direction read => exact .signal word direction (read.mono weaker)
  | keyValue word direction read => exact .keyValue word direction (read.mono weaker)

theorem Body.mono {classname : String} {tokens : List Token} {members : List Member}
    (body : Body strict classname tokens members) : Body loose classname tokens members :=
  Block.mono (fun _ _ _ => Line.mono weaker) body

end

end EntitySchema.Grammar
