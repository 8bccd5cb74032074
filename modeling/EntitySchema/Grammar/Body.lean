import EntitySchema.EntityClass
import EntitySchema.Grammar.ValueList

/-! The body of a class block: lines that each declare a keyvalue, an input or an
output, up to the closing bracket. A body that fails keeps the members declared
before the line at fault. -/
namespace EntitySchema.Grammar

inductive Member where
  | keyValue (keyValue : KeyValue)
  | signal (direction : Direction) (signal : Signal)

/-- Enters a member, replacing any of the same kind and folded name. -/
def Member.enter (entity : EntityClass) (member : Member) : EntityClass :=
  match member with
  | .keyValue property => entity.addKeyValue property
  | .signal direction declared => entity.addSignal direction declared

/-- Reads the parenthesised type of a member. -/
def readType : Parser (ValueType × Token) := do
  let token ← TokenStream.expect .parenArgs
  match ValueType.ofKeyword? token.text with
  | some type => return (type, token)
  | none => throw (token.semantic (.unknownValueType (trimmed token.text)))

/-- Reads the rest of an input or output line, and whether it closed the body. -/
def readSignal : Parser (Signal × Bool) := do
  let name ← TokenStream.expect .string
  let (type, token) ← readType
  if type.hasList then throw (token.semantic (.listTypeForIo type))
  else
    let (attributes, last) ← readAttributes .separator []
    if last.kind = .equals then throw last.unexpected
    else if attributes.length > 1 then throw (last.semantic (.tooManyIoAttributes name.text))
    else return (⟨name.text, type, attributes.headD ""⟩, last.kind = .bracketClose)

/-- Whether a word marks a keyvalue as read-only. All other words are ignored. -/
def isReadonly (word : String) : Bool :=
  word.toList.map Char.toLower == "readonly".toList

/-- Reads what follows the type of a keyvalue: a mark or none, and the attributes.
The token that ends them is returned as well. -/
def readMarkAndAttributes : Parser (Bool × List String × Token) := do
  let token ← TokenStream.next
  match token.kind with
  | .string =>
    let (attributes, last) ← readAttributes .separator []
    return (isReadonly token.text, attributes, last)
  | .colon =>
    let (attributes, last) ← readAttributes .attribute []
    return (false, attributes, last)
  | .equals | .newline | .bracketClose => return (false, [], token)
  | _ => throw token.unexpected

/-- Reads the rest of a keyvalue line in a class of the given name, and whether it
closed the body. -/
def readKeyValue (classname name : String) : Parser (KeyValue × Bool) := do
  let (type, _) ← readType
  let (readonly, attributes, last) ← readMarkAndAttributes
  if attributes.length > 3 then
    throw (last.semantic (.tooManyAttributes name attributes.length))
  else
    let keyValue : KeyValue :=
      { name, type, readonly, displayName := attributes[0]?.getD name
        initial := attributes[1]?.getD "", description := attributes[2]?.getD "", values := none }
    if type.hasList then
      if last.kind ≠ .equals then throw (last.semantic (.missingValueList name type))
      else
        let values ← readValueList classname name type
        return ({ keyValue with values := some values }, false)
    else if last.kind = .equals then throw (last.semantic (.unexpectedValueList name type))
    else return (keyValue, last.kind = .bracketClose)

/-- Reads a member line that begins with the given word. -/
def readMember (classname word : String) : Parser (Member × Bool) := do
  match fold word with
  | "input" =>
    let (signal, closed) ← readSignal
    return (.signal .input signal, closed)
  | "output" =>
    let (signal, closed) ← readSignal
    return (.signal .output signal, closed)
  | _ =>
    let (keyValue, closed) ← readKeyValue classname word
    return (.keyValue keyValue, closed)

theorem consuming_readType : Consuming readType :=
  consuming_bind (consuming_expect _) fun _ => by
    split
    · exact consuming_pure _
    · exact consuming_throw _

theorem consuming_readSignal : Consuming readSignal :=
  consuming_bind (consuming_expect _) fun _ =>
    consuming_bind consuming_readType fun _ =>
      consuming_ite (consuming_throw _) (consuming_bind (consuming_readAttributes _ _) fun _ =>
        consuming_ite (consuming_throw _) (consuming_ite (consuming_throw _) (consuming_pure _)))

theorem consuming_readMarkAndAttributes : Consuming readMarkAndAttributes := by
  refine consuming_bind consuming_next fun token => ?_
  split
  · exact consuming_bind (consuming_readAttributes _ _) fun _ => consuming_pure _
  · exact consuming_bind (consuming_readAttributes _ _) fun _ => consuming_pure _
  all_goals first | exact consuming_pure _ | exact consuming_throw _

theorem consuming_readKeyValue (classname name : String) :
    Consuming (readKeyValue classname name) :=
  consuming_bind consuming_readType fun _ =>
    consuming_bind consuming_readMarkAndAttributes fun _ =>
      consuming_ite (consuming_throw _) (consuming_ite
        (consuming_ite (consuming_throw _)
          (consuming_bind (consuming_readValueList _ _ _) fun _ => consuming_pure _))
        (consuming_ite (consuming_throw _) (consuming_pure _)))

theorem consuming_readMember (classname word : String) :
    Consuming (readMember classname word) := by
  rw [readMember]
  split
  · exact consuming_bind consuming_readSignal fun _ => consuming_pure _
  · exact consuming_bind consuming_readSignal fun _ => consuming_pure _
  · exact consuming_bind (consuming_readKeyValue _ _) fun _ => consuming_pure _

/-- Reads members into a class up to the closing bracket of its body. -/
def readBody (entity : EntityClass) (stream : TokenStream) :
    EntityClass × EStateM.Result Fault TokenStream Unit :=
  match stream with
  | .token token rest =>
    match token.kind with
    | .bracketClose => (entity, .ok () rest)
    | .newline => readBody entity rest
    | .string =>
      match _ : readMember entity.name token.text rest with
      | .ok (member, closed) after =>
        if closed then (member.enter entity, .ok () after)
        else readBody (member.enter entity) after
      | .error fault after => (entity, .error fault after)
    | .endOfInput => (entity, .error (token.malformed (.bodyNeverEnded entity.name)) rest)
    | _ => (entity, .error token.unexpected rest)
  | .exhausted span =>
    (entity, .error ((Token.endOfInput span).malformed (.bodyNeverEnded entity.name))
      (.exhausted span))
  | .failed fault resume => (entity, .error fault resume.stream)
termination_by stream.length
decreasing_by
  · simp [TokenStream.length]
  · exact Nat.lt_succ_of_le (consuming_readMember entity.name token.text _ _ _ ‹_›)

theorem length_readBody_le {entity : EntityClass} {stream rest : TokenStream}
    (read : (readBody entity stream).2 = .ok () rest) : rest.length ≤ stream.length := by
  fun_induction readBody with
  | case1 => grind [TokenStream.length]
  | case2 => grind [TokenStream.length]
  | case3 => have := consuming_readMember _ _ _ _ _ ‹_›; grind [TokenStream.length]
  | case4 => have := consuming_readMember _ _ _ _ _ ‹_›; grind [TokenStream.length]
  | _ => grind

end EntitySchema.Grammar
