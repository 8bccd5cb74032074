import EntitySchema.Grammar.Attributes
import EntitySchema.KeyValue
import EntitySchema.Text.Numeral

/-! The bracketed lists of flags and choices. An entry is a value with a label; the
value of a flag has to be a power of two, and a flag may say whether it is set
initially. -/
namespace EntitySchema.Grammar

/-- The bit that the value of a flag denotes, in a class of the given name. -/
def flagBit (value classname : String) : Except SemanticProblem FlagBit :=
  let text := trimmed value
  match text.toList with
  | '-' :: digits =>
    if (Text.digits? digits).isSome then .error (.flagNotPowerOfTwo text classname)
    else .error (.flagNotInteger text classname)
  | numeral =>
    match Text.natural? numeral with
    | some n =>
      if n.log2 < FlagBit.width then
        match FlagBit.ofValue? n with
        | some bit => .ok bit
        | none => .error (.flagNotPowerOfTwo text classname)
      else .error (.flagOutOfRange text classname)
    | none => .error (.flagNotInteger text classname)

/-- Whether a flag with the given initial text is set: numbers are compared with
zero, any other text but a blank one counts as set. -/
def initiallySet (text : String) : Bool :=
  match Text.int64? (Text.trim text.toList) with
  | some n => n != 0
  | none => !(Text.trim text.toList).isEmpty

/-- Reads what follows the value of a list entry: at least one attribute and at most
`limit`. The token that ends the entry is returned as well. -/
def readFields (key value : String) (limit : Nat) : Parser (List String × Token) := do
  let (fields, last) ← readAttributes .separator []
  if last.kind = .equals then throw last.unexpected
  else if fields.isEmpty then throw (last.malformed (.missingLabel value key))
  else if fields.length > limit then
    throw (last.semantic (.badListEntry key value fields.length))
  else return (fields, last)

theorem consuming_readFields (key value : String) (limit : Nat) :
    Consuming (readFields key value limit) := by
  refine consuming_bind (consuming_readAttributes _ _) fun result => ?_
  exact consuming_ite (consuming_throw _) (consuming_ite (consuming_throw _)
    (consuming_ite (consuming_throw _) (consuming_pure _)))

/-- A flag from the value and the fields of its entry. -/
def flagEntry (classname value : String) (fields : List String) :
    Except SemanticProblem FlagEntry := do
  let bit ← flagBit value classname
  return ⟨bit, fields.headD "", fields[1]?.any initiallySet⟩

def choice (value : String) (fields : List String) : Except SemanticProblem Choice :=
  .ok ⟨value, fields.headD ""⟩

variable {α : Type}

/-- Reads the entries of a list up to its closing bracket; those already read are
given in reverse. -/
def readEntries (key : String) (limit : Nat)
    (entry : String → List String → Except SemanticProblem α) (entries : List α)
    (stream : TokenStream) : EStateM.Result Fault TokenStream (List α) :=
  match stream with
  | .token token rest =>
    match token.kind with
    | .newline => readEntries key limit entry entries rest
    | .bracketClose => .ok entries.reverse rest
    | .string =>
      match _ : readFields key token.text limit rest with
      | .ok (fields, last) after =>
        match entry token.text fields with
        | .ok new =>
          if last.kind = .bracketClose then .ok (new :: entries).reverse after
          else readEntries key limit entry (new :: entries) after
        | .error problem => .error (last.semantic problem) after
      | .error fault after => .error fault after
    | .endOfInput => .error (token.malformed (.listNeverEnded key)) rest
    | _ => .error token.unexpected rest
  | .exhausted span =>
    .error ((Token.endOfInput span).malformed (.listNeverEnded key)) (.exhausted span)
  | .failed fault resume => .error fault resume.stream
termination_by stream.length
decreasing_by
  · simp [TokenStream.length]
  · exact Nat.lt_succ_of_le (consuming_readFields key token.text limit _ _ _ ‹_›)

theorem consuming_readEntries (key : String) (limit : Nat)
    (entry : String → List String → Except SemanticProblem α) (entries : List α) :
    Consuming (readEntries key limit entry entries) := by
  intro stream rest result read
  fun_induction readEntries with
  | case1 => grind [TokenStream.length]
  | case2 => grind [TokenStream.length]
  | case3 => have := consuming_readFields _ _ _ _ _ _ ‹_›; grind [TokenStream.length]
  | case4 => have := consuming_readFields _ _ _ _ _ _ ‹_›; grind [TokenStream.length]
  | _ => grind

/-- Reads the value list of a keyvalue of the given name and type. -/
def readValueList (classname key : String) (type : ValueType) : Parser ValueList := do
  let _ ← TokenStream.expect .bracketOpen
  match type with
  | .flags => return .flags (← readEntries key 2 (flagEntry classname) [])
  | _ => return .choices (← readEntries key 1 choice [])

theorem consuming_readValueList (classname key : String) (type : ValueType) :
    Consuming (readValueList classname key type) := by
  refine consuming_bind (consuming_expect _) fun _ => ?_
  split
  · exact consuming_bind (consuming_readEntries _ _ _ _) fun _ => consuming_pure _
  · exact consuming_bind (consuming_readEntries _ _ _ _) fun _ => consuming_pure _

end EntitySchema.Grammar
