import EntitySchema.Proofs.Grammar.BodyReaders
import EntitySchema.Grammar.Header

/-! Where tokens stand makes no difference to what is read. Two streams whose tokens agree
but for their places are read to the same values, or to faults of the same cause; and if the
places of the tokens correspond to each other, so do the places of the faults. -/
namespace EntitySchema

/-- A line and a column. -/
abbrev Place := Nat × Nat

def Mark.place (mark : Mark) : Place := (mark.line, mark.column)

def Span.place (span : Span) : Place := (span.line, span.column)

def Fault.place (fault : Fault) : Place := (fault.line, fault.column)

/-- A problem without the places of the tokens that it mentions. -/
def SyntaxProblem.unplaced : SyntaxProblem → SyntaxProblem
  | .expected wanted found => .expected wanted { found with span := ⟨0, 0, 0, 0⟩ }
  | .unexpected token => .unexpected { token with span := ⟨0, 0, 0, 0⟩ }
  | problem => problem

def Cause.unplaced : Cause → Cause
  | .malformed problem => .malformed problem.unplaced
  | cause => cause

/-- Nothing that is reported of a cause tells places. -/
theorem Cause.message_unplaced (cause : Cause) : cause.unplaced.message = cause.message := by
  cases cause with
  | malformed problem => cases problem <;> rfl
  | _ => rfl

variable {R : Place → Place → Prop}

/-- The same token at a corresponding place. -/
inductive Token.Moved (R : Place → Place → Prop) : Token → Token → Prop
  | intro {kind : TokenKind} {text : String} {span other : Span} :
      R span.place other.place → Token.Moved R ⟨kind, text, span⟩ ⟨kind, text, other⟩

/-- A fault of the same cause at a corresponding place. -/
structure Fault.Moved (R : Place → Place → Prop) (fault other : Fault) : Prop where
  cause : other.cause.unplaced = fault.cause.unplaced
  place : R fault.place other.place

namespace Token.Moved

variable {token other : Token} (moved : token.Moved R other)

include moved

theorem kind : other.kind = token.kind := by
  obtain ⟨_⟩ := moved
  rfl

theorem malformed {problem changed : SyntaxProblem}
    (same : changed.unplaced = problem.unplaced) :
    (token.malformed problem).Moved R (other.malformed changed) := by
  obtain ⟨place⟩ := moved
  exact ⟨congrArg Cause.malformed same, place⟩

theorem semantic (problem : SemanticProblem) :
    (token.semantic problem).Moved R (other.semantic problem) := by
  obtain ⟨place⟩ := moved
  exact ⟨rfl, place⟩

theorem unexpected : token.unexpected.Moved R other.unexpected := by
  obtain ⟨place⟩ := moved
  exact malformed ⟨place⟩ rfl

theorem expected (kind : TokenKind) :
    (token.malformed (.expected kind token)).Moved R
      (other.malformed (.expected kind other)) := by
  obtain ⟨place⟩ := moved
  exact malformed ⟨place⟩ rfl

end Token.Moved

/-- The same stream with its tokens at corresponding places, and its fault if it ends in one. -/
inductive TokenStream.Moved (R : Place → Place → Prop) : TokenStream → TokenStream → Prop
  | token {head other : Token} {rest others : TokenStream} :
      head.Moved R other → Moved R rest others → Moved R (.token head rest) (.token other others)
  | exhausted {span other : Span} :
      R span.place other.place → Moved R (.exhausted span) (.exhausted other)
  | failed {fault other : Fault} {resume again : Lexer} :
      fault.Moved R other → Moved R (.failed fault resume) (.failed other again)

namespace Grammar

variable {α β γ δ : Type}

/-- Values that are related, with streams that have moved behind them, or faults that have. -/
inductive Agree (R : Place → Place → Prop) (same : α → β → Prop) :
    EStateM.Result Fault TokenStream α → EStateM.Result Fault TokenStream β → Prop
  | ok {value : α} {other : β} {rest others : TokenStream} :
      same value other → rest.Moved R others → Agree R same (.ok value rest) (.ok other others)
  | error {fault other : Fault} {rest others : TokenStream} :
      fault.Moved R other → Agree R same (.error fault rest) (.error other others)

/-- Parsers that do alike on streams that differ in the places of their tokens. -/
def Placeless (R : Place → Place → Prop) (same : α → β → Prop) (parser : Parser α)
    (other : Parser β) : Prop :=
  ∀ stream moved, stream.Moved R moved → Agree R same (parser stream) (other moved)

namespace Placeless

theorem exists_ok {same : α → β → Prop} {parser : Parser α} {other : Parser β}
    {stream moved rest : TokenStream} {value : α} (placeless : Placeless R same parser other)
    (alike : stream.Moved R moved) (found : parser stream = .ok value rest) :
    ∃ again others, other moved = .ok again others ∧ same value again ∧ rest.Moved R others := by
  have agree := placeless stream moved alike
  rw [found] at agree
  generalize other moved = result at agree
  cases agree with
  | ok same alike => exact ⟨_, _, rfl, same, alike⟩

theorem exists_error {same : α → β → Prop} {parser : Parser α} {other : Parser β}
    {stream moved rest : TokenStream} {fault : Fault} (placeless : Placeless R same parser other)
    (alike : stream.Moved R moved) (failed : parser stream = .error fault rest) :
    ∃ again others, other moved = .error again others ∧ fault.Moved R again := by
  have agree := placeless stream moved alike
  rw [failed] at agree
  generalize other moved = result at agree
  cases agree with
  | error moved => exact ⟨_, _, rfl, moved⟩

theorem guard {same : α → β → Prop} {condition : Prop} [Decidable condition]
    {fault changed : Fault} {parser : Parser α} {other : Parser β}
    (moved : fault.Moved R changed) (rest : Placeless R same parser other) :
    Placeless R same (if condition then throw fault else parser)
      (if condition then throw changed else other) := by
  split
  · exact fun _ _ _ => .error moved
  · exact rest

theorem pure {same : α → β → Prop} {value : α} {other : β} (related : same value other) :
    Placeless R same (pure value) (pure other) :=
  fun _ _ moved => .ok related moved

theorem throw {same : α → β → Prop} {fault other : Fault} (moved : fault.Moved R other) :
    Placeless R same (throw fault) (throw other) :=
  fun _ _ _ => .error moved

theorem bind {same : α → β → Prop} {related : γ → δ → Prop} {parser : Parser α}
    {other : Parser β} {next : α → Parser γ} {after : β → Parser δ}
    (first : Placeless R same parser other)
    (second : ∀ value moved, same value moved → Placeless R related (next value) (after moved)) :
    Placeless R related (parser >>= next) (other >>= after) := by
  intro stream moved alike
  change Agree R related (EStateM.bind parser next stream) (EStateM.bind other after moved)
  unfold EStateM.bind
  have started := first stream moved alike
  generalize parser stream = result, other moved = changed at started
  cases started with
  | ok same alike => exact second _ _ same _ _ alike
  | error moved => exact .error moved

/-- Values that do not speak of tokens are the same. -/
theorem andThen {same : γ → δ → Prop} {parser other : Parser α} {next : α → Parser γ}
    {after : α → Parser δ} (first : Placeless R Eq parser other)
    (second : ∀ value, Placeless R same (next value) (after value)) :
    Placeless R same (parser >>= next) (other >>= after) := by
  refine first.bind fun value moved same => ?_
  subst same
  exact second value

end Placeless

theorem placeless_next : Placeless R (Token.Moved R) TokenStream.next TokenStream.next := by
  intro stream others moved
  cases moved with
  | token moved rest => exact .ok moved rest
  | exhausted place => exact .ok ⟨place⟩ (.exhausted place)
  | failed moved => exact .error moved

theorem placeless_expect (kind : TokenKind) :
    Placeless R (Token.Moved R) (TokenStream.expect kind) (TokenStream.expect kind) := by
  intro stream others moved
  induction moved with
  | @token head other rest others moved alike ih =>
    obtain ⟨place⟩ := moved
    rw [TokenStream.expect, TokenStream.expect]
    split
    · exact .ok ⟨place⟩ alike
    · split
      · exact ih
      · exact .error (Token.Moved.expected ⟨place⟩ kind)
  | exhausted place =>
    rw [TokenStream.expect, TokenStream.expect]
    split
    · exact .ok ⟨place⟩ (.exhausted place)
    · exact .error (Token.Moved.expected ⟨place⟩ kind)
  | failed moved => exact .error moved

/-- Texts with the token behind them. -/
def Told (R : Place → Place → Prop) (read other : List String × Token) : Prop :=
  other.1 = read.1 ∧ read.2.Moved R other.2

theorem placeless_readAttributes (awaiting : Awaiting) (attributes : List String) :
    Placeless R (Told R) (readAttributes awaiting attributes)
      (readAttributes awaiting attributes) := by
  intro stream others moved
  induction moved generalizing awaiting attributes with
  | @token head other rest others moved alike ih =>
    obtain @⟨kind, text, span, other, place⟩ := moved
    cases awaiting with
    | separator =>
      cases kind with
      | string => exact .error (Token.Moved.malformed ⟨place⟩ rfl)
      | colon => exact ih .attribute attributes
      | plus =>
        simp only [readAttributes]
        split
        · exact .error (Token.Moved.malformed ⟨place⟩ rfl)
        · exact ih .piece attributes
      | endOfInput => exact .error (Token.Moved.unexpected ⟨place⟩)
      | _ => exact .ok ⟨rfl, ⟨place⟩⟩ alike
    | «attribute» =>
      cases kind with
      | string => exact ih .separator (text :: attributes)
      | colon => exact ih .attribute ("" :: attributes)
      | plus => exact .error (Token.Moved.malformed ⟨place⟩ rfl)
      | newline => exact ih .attribute attributes
      | _ => exact .error (Token.Moved.unexpected ⟨place⟩)
    | piece =>
      cases kind with
      | string => exact ih .separator (joinPiece text attributes)
      | newline => exact ih .piece attributes
      | _ => exact .error (Token.Moved.expected ⟨place⟩ .string)
  | exhausted place =>
    cases awaiting with
    | piece => exact .error (Token.Moved.expected ⟨place⟩ .string)
    | _ => exact .error (Token.Moved.unexpected ⟨place⟩)
  | failed moved => exact .error moved

theorem placeless_readHelpers (entity : EntityClass) (pending : Option HelperKind) :
    Placeless R Eq (readHelpers entity pending) (readHelpers entity pending) := by
  intro stream others moved
  induction moved generalizing entity pending with
  | @token head other rest others moved alike ih =>
    obtain @⟨kind, text, span, other, place⟩ := moved
    cases kind with
    | newline => exact ih entity pending
    | string =>
      simp only [readHelpers]
      split
      · exact ih _ _
      · exact .error (Token.Moved.semantic ⟨place⟩ _)
    | parenArgs =>
      simp only [readHelpers]
      split
      · exact ih _ _
      · exact .error (Token.Moved.malformed ⟨place⟩ rfl)
    | equals => exact .ok rfl alike
    | endOfInput => exact .error (Token.Moved.malformed ⟨place⟩ rfl)
    | _ => exact .error (Token.Moved.unexpected ⟨place⟩)
  | exhausted place => exact .error (Token.Moved.malformed ⟨place⟩ rfl)
  | failed moved => exact .error moved

theorem placeless_readDescription (pieces : Option (List String)) (joining : Bool) :
    Placeless R Eq (readDescription pieces joining) (readDescription pieces joining) := by
  intro stream others moved
  induction moved generalizing pieces joining with
  | @token head other rest others moved alike ih =>
    obtain @⟨kind, text, span, other, place⟩ := moved
    cases joining with
    | true =>
      cases kind with
      | string => exact ih _ _
      | newline => exact ih _ _
      | _ => exact .error (Token.Moved.expected ⟨place⟩ .string)
    | false =>
      cases kind with
      | newline => exact ih _ _
      | colon =>
        cases pieces with
        | none => exact ih _ _
        | some pieces => exact .error (Token.Moved.malformed ⟨place⟩ rfl)
      | string =>
        rcases pieces with _ | _ | ⟨piece, pieces⟩
        · exact .error (Token.Moved.unexpected ⟨place⟩)
        · exact ih _ _
        · exact .error (Token.Moved.unexpected ⟨place⟩)
      | plus =>
        rcases pieces with _ | _ | ⟨piece, pieces⟩
        · exact .error (Token.Moved.malformed ⟨place⟩ rfl)
        · exact .error (Token.Moved.malformed ⟨place⟩ rfl)
        · exact ih _ _
      | bracketOpen => exact .ok rfl alike
      | _ => exact .error (Token.Moved.unexpected ⟨place⟩)
  | exhausted place =>
    cases joining with
    | true => exact .error (Token.Moved.expected ⟨place⟩ .string)
    | false => exact .error (Token.Moved.unexpected ⟨place⟩)
  | failed moved => exact .error moved

theorem placeless_readHead (category : Category) :
    Placeless R Eq (readHead category) (readHead category) := by
  refine .andThen (placeless_readHelpers _ _) fun entity => ?_
  refine .bind (placeless_expect .string) fun name other moved => ?_
  obtain ⟨place⟩ := moved
  exact .andThen (placeless_readDescription _ _) fun description => .pure rfl

theorem placeless_readFields (key value : String) (limit : Nat) :
    Placeless R (Told R) (readFields key value limit) (readFields key value limit) := by
  refine .bind (placeless_readAttributes _ _) fun read other told => ?_
  obtain ⟨fields, last⟩ := read
  obtain ⟨_, _⟩ := other
  obtain ⟨rfl, ⟨place⟩⟩ := told
  exact .guard (Token.Moved.unexpected ⟨place⟩) (.guard (Token.Moved.malformed ⟨place⟩ rfl)
    (.guard (Token.Moved.semantic ⟨place⟩ _) (.pure ⟨rfl, ⟨place⟩⟩)))

theorem placeless_readEntries (key : String) (limit : Nat)
    (entry : String → List String → Except SemanticProblem α) (entries : List α) :
    Placeless R Eq (readEntries key limit entry entries) (readEntries key limit entry entries) := by
  intro stream
  fun_induction readEntries key limit entry entries stream with
  | case1 entries token rest lineBreak ih =>
    rintro _ ⟨⟨place⟩, alike⟩
    cases lineBreak
    rw [readEntries]
    exact ih _ alike
  | case2 entries token rest bracket =>
    rintro _ ⟨⟨place⟩, alike⟩
    cases bracket
    rw [readEntries]
    exact .ok rfl alike
  | case3 entries token rest string fields last after found new made bracket =>
    rintro _ ⟨@⟨_, text, span, other, place⟩, alike⟩
    cases string
    have string : (⟨.string, text, other⟩ : Token).kind = .string := rfl
    obtain ⟨⟨_, _⟩, others, changed, ⟨rfl, ⟨final⟩⟩, alike⟩ :=
      (placeless_readFields _ _ _).exists_ok alike found
    cases bracket
    rw [readEntries_token string changed made, if_pos rfl]
    exact .ok rfl alike
  | case4 entries token rest string fields last after found new made more ih =>
    rintro _ ⟨@⟨_, text, span, other, place⟩, alike⟩
    cases string
    have string : (⟨.string, text, other⟩ : Token).kind = .string := rfl
    obtain ⟨⟨_, _⟩, others, changed, ⟨rfl, ⟨final⟩⟩, alike⟩ :=
      (placeless_readFields _ _ _).exists_ok alike found
    rw [readEntries_token string changed made, if_neg more]
    exact ih _ alike
  | case5 entries token rest string fields last after found problem refused =>
    rintro _ ⟨@⟨_, text, span, other, place⟩, alike⟩
    cases string
    have string : (⟨.string, text, other⟩ : Token).kind = .string := rfl
    obtain ⟨⟨_, _⟩, others, changed, ⟨rfl, ⟨final⟩⟩, alike⟩ :=
      (placeless_readFields _ _ _).exists_ok alike found
    rw [readEntries_of_refused string changed refused]
    exact .error (Token.Moved.semantic ⟨final⟩ _)
  | case6 entries token rest string fault after failed =>
    rintro _ ⟨@⟨_, text, span, other, place⟩, alike⟩
    cases string
    have string : (⟨.string, text, other⟩ : Token).kind = .string := rfl
    obtain ⟨_, others, changed, moved⟩ := (placeless_readFields _ _ _).exists_error alike failed
    rw [readEntries_of_failed string changed]
    exact .error moved
  | case7 entries token rest last =>
    rintro _ ⟨⟨place⟩, alike⟩
    cases last
    rw [readEntries]
    exact .error (Token.Moved.malformed ⟨place⟩ rfl)
  | case8 entries token rest notLineBreak notBracket notString notLast =>
    rintro _ ⟨@⟨kind, text, span, other, place⟩, alike⟩
    rw [readEntries]
    cases kind with
    | newline => exact (notLineBreak rfl).elim
    | bracketClose => exact (notBracket rfl).elim
    | string => exact (notString rfl).elim
    | endOfInput => exact (notLast rfl).elim
    | _ => exact .error (Token.Moved.unexpected ⟨place⟩)
  | case9 entries span =>
    intro others moved
    cases moved with
    | exhausted place =>
      rw [readEntries]
      exact .error (Token.Moved.malformed ⟨place⟩ rfl)
  | case10 entries fault resume =>
    intro others moved
    cases moved with
    | failed moved =>
      rw [readEntries]
      exact .error moved

theorem placeless_readValueList (classname key : String) (type : ValueType) :
    Placeless R Eq (readValueList classname key type) (readValueList classname key type) := by
  refine .bind (placeless_expect _) fun _ _ _ => ?_
  split
  · exact .andThen (placeless_readEntries _ _ _ _) fun _ => .pure rfl
  · exact .andThen (placeless_readEntries _ _ _ _) fun _ => .pure rfl

theorem placeless_readType :
    Placeless R (fun read other => other.1 = read.1 ∧ read.2.Moved R other.2) readType
      readType := by
  refine .bind (placeless_expect _) fun token other moved => ?_
  obtain ⟨place⟩ := moved
  dsimp only
  split
  · exact .pure ⟨rfl, ⟨place⟩⟩
  · exact .throw (Token.Moved.semantic ⟨place⟩ _)

theorem placeless_readSignal : Placeless R Eq readSignal readSignal := by
  refine .bind (placeless_expect _) fun name _ moved => ?_
  obtain ⟨_⟩ := moved
  refine .bind placeless_readType fun read other typed => ?_
  obtain ⟨type, token⟩ := read
  obtain ⟨_, _⟩ := other
  obtain ⟨rfl, ⟨place⟩⟩ := typed
  refine .guard (Token.Moved.semantic ⟨place⟩ _) ?_
  refine .bind (placeless_readAttributes _ _) fun read other told => ?_
  obtain ⟨attributes, last⟩ := read
  obtain ⟨_, _⟩ := other
  obtain ⟨rfl, ⟨final⟩⟩ := told
  exact .guard (Token.Moved.unexpected ⟨final⟩) (.guard (Token.Moved.semantic ⟨final⟩ _)
    (.pure rfl))

theorem placeless_readMarkAndAttributes :
    Placeless R (fun read other => other.1 = read.1 ∧ Told R read.2 other.2)
      readMarkAndAttributes readMarkAndAttributes := by
  refine .bind placeless_next fun token _ moved => ?_
  obtain @⟨kind, text, span, other, place⟩ := moved
  cases kind with
  | string =>
    refine .bind (placeless_readAttributes _ _) fun read other told => ?_
    exact .pure ⟨rfl, told⟩
  | colon =>
    refine .bind (placeless_readAttributes _ _) fun read other told => ?_
    exact .pure ⟨rfl, told⟩
  | equals => exact .pure ⟨rfl, rfl, ⟨place⟩⟩
  | newline => exact .pure ⟨rfl, rfl, ⟨place⟩⟩
  | bracketClose => exact .pure ⟨rfl, rfl, ⟨place⟩⟩
  | _ => exact .throw (Token.Moved.unexpected ⟨place⟩)

theorem placeless_readKeyValue (classname name : String) :
    Placeless R Eq (readKeyValue classname name) (readKeyValue classname name) := by
  refine .bind placeless_readType fun read other typed => ?_
  obtain ⟨type, token⟩ := read
  obtain ⟨_, _⟩ := other
  obtain ⟨rfl, -⟩ := typed
  refine .bind placeless_readMarkAndAttributes fun read other told => ?_
  obtain ⟨readonly, attributes, last⟩ := read
  obtain ⟨_, _, _⟩ := other
  obtain ⟨rfl, rfl, ⟨final⟩⟩ := told
  refine .guard (Token.Moved.semantic ⟨final⟩ _) ?_
  dsimp only
  split
  · refine .guard (Token.Moved.semantic ⟨final⟩ _) ?_
    exact .andThen (placeless_readValueList _ _ _) fun values => .pure rfl
  · exact .guard (Token.Moved.semantic ⟨final⟩ _) (.pure rfl)

theorem placeless_readMember (classname word : String) :
    Placeless R Eq (readMember classname word) (readMember classname word) := by
  rw [readMember]
  split
  · exact .andThen placeless_readSignal fun read => .pure rfl
  · exact .andThen placeless_readSignal fun read => .pure rfl
  · exact .andThen (placeless_readKeyValue _ _) fun read => .pure rfl

/-- The members are the same, and so is where they end. -/
theorem placeless_readBody (entity : EntityClass) {stream others : TokenStream}
    (moved : stream.Moved R others) :
    (readBody entity others).1 = (readBody entity stream).1 ∧
      Agree R Eq (readBody entity stream).2 (readBody entity others).2 := by
  fun_induction readBody entity stream generalizing others with
  | case1 entity token rest bracket =>
    obtain ⟨⟨place⟩, alike⟩ := moved
    cases bracket
    rw [readBody]
    exact ⟨rfl, .ok rfl alike⟩
  | case2 entity token rest lineBreak ih =>
    obtain ⟨⟨place⟩, alike⟩ := moved
    cases lineBreak
    rw [readBody]
    exact ih alike
  | case3 entity token rest string member after found =>
    obtain ⟨@⟨_, text, span, other, place⟩, alike⟩ := moved
    cases string
    have string : (⟨.string, text, other⟩ : Token).kind = .string := rfl
    obtain ⟨_, others, changed, rfl, alike⟩ := (placeless_readMember _ text).exists_ok alike found
    rw [readBody_token string changed, if_pos rfl]
    exact ⟨rfl, .ok rfl alike⟩
  | case4 entity token rest string member closed after found goesOn ih =>
    obtain ⟨@⟨_, text, span, other, place⟩, alike⟩ := moved
    cases string
    have string : (⟨.string, text, other⟩ : Token).kind = .string := rfl
    obtain ⟨_, others, changed, rfl, alike⟩ := (placeless_readMember _ text).exists_ok alike found
    rw [readBody_token string changed, if_neg goesOn]
    exact ih alike
  | case5 entity token rest string fault after failed =>
    obtain ⟨@⟨_, text, span, other, place⟩, alike⟩ := moved
    cases string
    have string : (⟨.string, text, other⟩ : Token).kind = .string := rfl
    obtain ⟨_, others, changed, moved⟩ := (placeless_readMember _ text).exists_error alike failed
    rw [readBody_of_failed string changed]
    exact ⟨rfl, .error moved⟩
  | case6 entity token rest last =>
    obtain ⟨⟨place⟩, alike⟩ := moved
    cases last
    rw [readBody]
    exact ⟨rfl, .error (Token.Moved.malformed ⟨place⟩ rfl)⟩
  | case7 entity token rest notBracket notLineBreak notString notLast =>
    obtain ⟨@⟨kind, text, span, other, place⟩, alike⟩ := moved
    rw [readBody]
    cases kind with
    | bracketClose => exact (notBracket rfl).elim
    | newline => exact (notLineBreak rfl).elim
    | string => exact (notString rfl).elim
    | endOfInput => exact (notLast rfl).elim
    | _ => exact ⟨rfl, .error (Token.Moved.unexpected ⟨place⟩)⟩
  | case8 entity span =>
    cases moved with
    | exhausted place =>
      rw [readBody]
      exact ⟨rfl, .error (Token.Moved.malformed ⟨place⟩ rfl)⟩
  | case9 entity fault resume =>
    cases moved with
    | failed moved =>
      rw [readBody]
      exact ⟨rfl, .error moved⟩

end Grammar
end EntitySchema
