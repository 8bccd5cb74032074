import EntitySchema.Grammar.Parser
import EntitySchema.EntityClass

/-! The head of a class block: helpers up to the equals sign, then the classname
and an optional description up to the opening bracket. -/
namespace EntitySchema.Grammar

/-- Arguments are separated by commas; blank text holds none. -/
def splitArguments (text : String) : List String :=
  if (Text.trim text.toList).isEmpty then []
  else (text.toList.splitOn ',').map fun argument => String.ofList (Text.trim argument)

/-- Enters a helper and its arguments. Inheritance is recorded as bases and not as
a helper. -/
def enterHelper (entity : EntityClass) (kind : HelperKind) (arguments : List String) :
    EntityClass :=
  match kind with
  | .inherit => arguments.foldl EntityClass.addBase entity
  | kind => entity.addHelper ⟨kind, arguments⟩

/-- Enters a helper for which no arguments followed. -/
def enterPending (entity : EntityClass) (pending : Option HelperKind) : EntityClass :=
  match pending with
  | some kind => enterHelper entity kind []
  | none => entity

/-- Reads helpers up to the equals sign; the pending one still lacks arguments. -/
def readHelpers (entity : EntityClass) (pending : Option HelperKind) : Parser EntityClass
  | .token token rest =>
    match token.kind with
    | .newline => readHelpers entity pending rest
    | .string =>
      match HelperKind.ofKeyword? token.text with
      | some kind => readHelpers (enterPending entity pending) (some kind) rest
      | none => .error (token.semantic (.unknownHelper token.text)) rest
    | .parenArgs =>
      match pending with
      | some kind => readHelpers (enterHelper entity kind (splitArguments token.text)) none rest
      | none => .error (token.malformed (.argumentsWithoutHelper token.text)) rest
    | .equals => .ok (enterPending entity pending) rest
    | .endOfInput => .error (token.malformed .headerNeverEnded) rest
    | _ => .error token.unexpected rest
  | .exhausted span =>
    .error ((Token.endOfInput span).malformed .headerNeverEnded) (.exhausted span)
  | .failed fault resume => .error fault resume.stream

/-- Reads a description up to the opening bracket. `pieces` is `none` before the
colon and holds the strings after it in reverse; after a plus sign another one has
to follow. -/
def readDescription (pieces : Option (List String)) (joining : Bool) : Parser String
  | .token token rest =>
    if joining then
      match token.kind with
      | .string => readDescription (some (token.text :: pieces.getD [])) false rest
      | .newline => readDescription pieces true rest
      | _ => .error (token.malformed (.expected .string token)) rest
    else
      match token.kind, pieces with
      | .newline, _ => readDescription pieces false rest
      | .colon, none => readDescription (some []) false rest
      | .colon, some _ => .error (token.malformed .twoColons) rest
      | .string, some [] => readDescription (some [token.text]) false rest
      | .plus, some (_ :: _) => readDescription pieces true rest
      | .plus, _ => .error (token.malformed .plusWithoutString) rest
      | .bracketOpen, _ => .ok (String.join (pieces.getD []).reverse) rest
      | _, _ => .error token.unexpected rest
  | .exhausted span =>
    let token := Token.endOfInput span
    .error (if joining then token.malformed (.expected .string token) else token.unexpected)
      (.exhausted span)
  | .failed fault resume => .error fault resume.stream

/-- Reads the head of a block, which yields a class without members. -/
def readHead (category : Category) : Parser EntityClass := do
  let entity ← readHelpers (.plain category "") none
  let name ← TokenStream.expect .string
  let description ← readDescription none false
  return { entity with name := trimmed name.text, description }

theorem consuming_readHelpers (entity : EntityClass) (pending : Option HelperKind) :
    Consuming (readHelpers entity pending) := by
  intro stream rest result read
  fun_induction readHelpers <;> grind [TokenStream.length]

theorem consuming_readDescription (pieces : Option (List String)) (joining : Bool) :
    Consuming (readDescription pieces joining) := by
  intro stream rest result read
  fun_induction readDescription <;> grind [TokenStream.length]

theorem consuming_readHead (category : Category) : Consuming (readHead category) :=
  consuming_bind (consuming_readHelpers _ _) fun _ =>
    consuming_bind (consuming_expect _) fun _ =>
      consuming_bind (consuming_readDescription _ _) fun _ => consuming_pure _

end EntitySchema.Grammar
