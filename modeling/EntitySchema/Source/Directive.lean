import EntitySchema.Grammar.Header
import EntitySchema.Text.Numeral

/-! The directives that make up a source file. Each begins with a keyword; class
blocks are read up to their opening bracket. -/
namespace EntitySchema.Source

inductive Directive where
  /-- `@include`, with the token that names the file. -/
  | includeFile (target : Token)
  | mapSize (low high : Int64)
  /-- The head of a class block. -/
  | classHead (head : EntityClass)

/-- The two integers of a map size, separated by the first comma. -/
def mapSize? (text : String) : Option (Int64 × Int64) :=
  let before := text.toList.takeWhile (· != ',')
  match text.toList.dropWhile (· != ',') with
  | _ :: after => do
    let low ← Text.int64? (Text.trim before)
    let high ← Text.int64? (Text.trim after)
    return (low, high)
  | [] => none

/-- Reads the directive that begins with the given keyword. -/
def readDirective (keyword : Token) : Grammar.Parser Directive := do
  match fold keyword.text with
  | "@include" => return .includeFile (← TokenStream.expect .string)
  | "@mapsize" =>
    let token ← TokenStream.expect .parenArgs
    match mapSize? token.text with
    | some (low, high) => return .mapSize low high
    | none => throw (token.semantic (.invalidMapSize token.text))
  | folded =>
    match folded.toList with
    | '@' :: name =>
      match Category.ofKeyword? (String.ofList name) with
      | some category => return .classHead (← Grammar.readHead category)
      | none => throw (keyword.semantic (.unknownCategory (String.ofList name)))
    | _ => throw (keyword.semantic (.badKeyword keyword.text))

theorem consuming_readDirective (keyword : Token) :
    Grammar.Consuming (readDirective keyword) := by
  rw [readDirective]
  split
  · exact Grammar.consuming_bind (Grammar.consuming_expect _) fun _ => Grammar.consuming_pure _
  · refine Grammar.consuming_bind (Grammar.consuming_expect _) fun _ => ?_
    split
    · exact Grammar.consuming_pure _
    · exact Grammar.consuming_throw _
  · split
    · split
      · exact Grammar.consuming_bind (Grammar.consuming_readHead _) fun _ =>
          Grammar.consuming_pure _
      · exact Grammar.consuming_throw _
    · exact Grammar.consuming_throw _

end EntitySchema.Source
