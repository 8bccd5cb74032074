import EntitySchema.Proofs.Grammar.ListReaders

/-! The readers of member lines and of whole bodies accept what the grammar derives when
it tolerates parenthesised arguments and opening brackets at the ends of lines. -/
namespace EntitySchema.Grammar

open TokenStream (ahead)

theorem accepts_readType :
    Accepts readType fun tokens (type, token) =>
      Expected .parenArgs tokens token ∧ ValueType.ofKeyword? token.text = some type := by
  intro stream result rest
  rw [readType, (accepts_expect (by decide) (by decide)).bind_eq_ok_iff]
  constructor
  · rintro ⟨tokens, token, _, rfl, arguments, ran⟩
    cases known : ValueType.ofKeyword? token.text with
    | none =>
      simp only [known] at ran
      cases ran
    | some type =>
      simp only [known, pure_eq_ok_iff] at ran
      obtain ⟨rfl, rfl⟩ := ran
      exact ⟨tokens, rfl, arguments, known⟩
  · rintro ⟨tokens, rfl, arguments, known⟩
    refine ⟨tokens, result.2, rest, rfl, arguments, ?_⟩
    rw [known]
    rfl

theorem accepts_readSignal :
    Accepts readSignal fun tokens (signal, closed) => Signalled Tolerated tokens signal closed := by
  intro stream result rest
  rw [readSignal, (accepts_expect (by decide) (by decide)).bind_eq_ok_iff]
  simp only [accepts_readType.bind_eq_ok_iff, guard_eq_ok_iff,
    (accepts_readAttributes (by decide : Awaiting.separator ≠ .piece)).bind_eq_ok_iff,
    pure_eq_ok_iff, Bool.not_eq_true, Nat.not_lt]
  constructor
  · rintro ⟨names, name, _, rfl, named, types, ⟨type, token⟩, _, rfl, ⟨arguments, known⟩, plain,
      _, ⟨texts, last⟩, _, rfl, ⟨attributes, closes⟩, unequal, few, rfl, rfl⟩
    exact ⟨_, by simp, .signal named ⟨token, arguments, known⟩ plain attributes few
      (tolerated_iff.mpr ⟨closes, unequal⟩)⟩
  · obtain ⟨signal, closed⟩ := result
    rintro ⟨_, rfl, named, ⟨token, arguments, known⟩, plain, attributes, few, ends⟩
    obtain ⟨closes, unequal⟩ := tolerated_iff.mp ends
    exact ⟨_, _, _, by simp, named, _, (_, token), _, rfl, ⟨arguments, known⟩, plain, _, _, _,
      rfl, .intro attributes closes, unequal, few, rfl, rfl⟩

/-- What stands behind the type of a keyvalue, up to and including the token that ends
it. Where there is neither a mark nor an attribute, fewer tokens can be that end. -/
inductive Described : List Token → Bool × List String × Token → Prop
  | intro {mark front : List Token} {readonly : Bool} {texts : List String} {last : Token} :
      Marked mark readonly → Attributes .separator front texts → Closes last.kind →
      (mark ++ front = [] → EndsLine last.kind ∨ last.kind = .equals) →
      Described (mark ++ front ++ [last]) (readonly, texts, last)

theorem readMarkAndAttributes_token (token : Token) (stream : TokenStream) :
    readMarkAndAttributes (.token token stream) =
      (match token.kind with
      | .string => do
        let (attributes, last) ← readAttributes .separator []
        return (isReadonly token.text, attributes, last)
      | .colon => do
        let (attributes, last) ← readAttributes .attribute []
        return (false, attributes, last)
      | .equals | .newline | .bracketClose => return (false, [], token)
      | _ => throw token.unexpected : Parser (Bool × List String × Token)) stream :=
  rfl

theorem accepts_readMarkAndAttributes : Accepts readMarkAndAttributes Described := by
  intro stream result rest
  constructor
  · intro read
    cases stream with
    | exhausted span => cases read
    | failed fault resume => cases read
    | token token stream =>
      rw [readMarkAndAttributes_token] at read
      cases kind : token.kind <;> simp only [kind] at read
      case string =>
        obtain ⟨_, ⟨texts, last⟩, _, rfl, ⟨attributes, closes⟩, ran⟩ :=
          (accepts_readAttributes (by decide)).bind_eq_ok_iff.mp read
        cases ran
        exact ⟨_, rfl, .intro (.word kind) attributes closes nofun⟩
      case colon =>
        obtain ⟨_, ⟨texts, last⟩, _, rfl, ⟨attributes, closes⟩, ran⟩ :=
          (accepts_readAttributes (by decide)).bind_eq_ok_iff.mp read
        cases ran
        exact ⟨_, rfl, .intro .plain (.colon kind attributes) closes nofun⟩
      all_goals cases read
      all_goals
        refine ⟨_, rfl, .intro .plain .done ?_ fun _ => ?_⟩ <;>
          simp [Closes, Tolerated, EndsLine, kind]
  · rintro ⟨_, rfl, read⟩
    obtain @⟨mark, front, readonly, texts, last, marked, attributes, closes, bare⟩ := read
    cases marked with
    | word string =>
      simp only [List.cons_append, List.nil_append, TokenStream.ahead_cons]
      rw [readMarkAndAttributes_token]
      simp only [string]
      exact (accepts_readAttributes (by decide)).bind_eq_ok_iff.mpr
        ⟨_, _, _, rfl, .intro attributes closes, rfl⟩
    | plain =>
      cases attributes with
      | colon colon attributes =>
        simp only [List.cons_append, List.nil_append, TokenStream.ahead_cons]
        rw [readMarkAndAttributes_token]
        simp only [colon]
        exact (accepts_readAttributes (by decide)).bind_eq_ok_iff.mpr
          ⟨_, _, _, rfl, .intro attributes closes, rfl⟩
      | done =>
        rcases bare rfl with (newline | bracket) | equals
        · simp [readMarkAndAttributes_token, newline]
          rfl
        · simp [readMarkAndAttributes_token, bracket]
          rfl
        · simp [readMarkAndAttributes_token, equals]
          rfl

theorem accepts_readKeyValue (classname name : String) :
    Accepts (readKeyValue classname name) fun tokens (keyValue, closed) =>
      KeyValued Tolerated classname name tokens keyValue closed := by
  intro stream result rest
  rw [readKeyValue, accepts_readType.bind_eq_ok_iff]
  simp only [accepts_readMarkAndAttributes.bind_eq_ok_iff, guard_eq_ok_iff, Nat.not_lt]
  constructor
  · rintro ⟨types, ⟨type, token⟩, _, rfl, ⟨arguments, known⟩, _, _, _, rfl,
      @⟨mark, front, readonly, texts, last, marked, attributes, closes, bare⟩, few, ran⟩
    have typed : Typed types type := ⟨token, arguments, known⟩
    by_cases list : type.hasList = true
    · rw [if_pos list, guard_eq_ok_iff, (accepts_readValueList _ _ list).bind_eq_ok_iff] at ran
      obtain ⟨equals, _, values, _, rfl, ⟨opening, bracket, entries, rfl, opens, listed⟩, ran⟩ :=
        ran
      cases ran
      exact ⟨_, by simp, .listed typed marked attributes few (not_not.mp equals) opens listed⟩
    · rw [if_neg list, guard_eq_ok_iff] at ran
      obtain ⟨unequal, ran⟩ := ran
      cases ran
      exact ⟨_, by simp, .plain typed (Bool.not_eq_true _ ▸ list) marked attributes few
        (tolerated_iff.mpr ⟨closes, unequal⟩) fun none => (bare none).resolve_right unequal⟩
  · obtain ⟨keyValue, closed⟩ := result
    rintro ⟨_, rfl, read⟩
    cases read with
    | plain typed plain marked attributes few ends bare =>
      obtain ⟨token, arguments, known⟩ := typed
      obtain ⟨closes, unequal⟩ := tolerated_iff.mp ends
      refine ⟨_, (_, token), _, TokenStream.ahead_append _ _ _, ⟨arguments, known⟩, _, _, _, rfl,
        .intro marked attributes closes fun none => Or.inl (bare none), few, ?_⟩
      rw [if_neg (by simp [plain]), guard_eq_ok_iff]
      exact ⟨unequal, rfl⟩
    | listed typed marked attributes few equals opens list =>
      obtain ⟨token, arguments, known⟩ := typed
      have hasList := list.hasList
      refine ⟨_, (_, token), _, TokenStream.ahead_append _ _ _, ⟨arguments, known⟩, _, _, _,
        TokenStream.ahead_append _ _ _, .intro marked attributes (Or.inr equals)
          fun _ => Or.inr equals, few, ?_⟩
      rw [if_pos hasList, guard_eq_ok_iff, (accepts_readValueList _ _ hasList).bind_eq_ok_iff]
      exact ⟨not_not.mpr equals, _, _, _, rfl, ⟨_, _, _, rfl, opens, list⟩, rfl⟩

theorem directionWord_injective {direction other : Direction}
    (same : directionWord direction = directionWord other) : direction = other := by
  cases direction <;> cases other <;> simp_all [directionWord]

theorem readMember_of_direction {classname word : String} {direction : Direction}
    (same : fold word = directionWord direction) :
    readMember classname word = do
      let (signal, closed) ← readSignal
      return (.signal direction signal, closed) := by
  unfold readMember
  cases direction with
  | input =>
    rw [same, directionWord]
    rfl
  | output =>
    rw [same, directionWord]
    rfl

theorem readMember_of_name {classname word : String}
    (other : ∀ direction, fold word ≠ directionWord direction) :
    readMember classname word = do
      let (keyValue, closed) ← readKeyValue classname word
      return (.keyValue keyValue, closed) := by
  unfold readMember
  split
  · exact (other .input ‹_›).elim
  · exact (other .output ‹_›).elim
  · rfl

theorem accepts_readMember (classname : String) {word : Token} (string : word.kind = .string) :
    Accepts (readMember classname word.text) fun tokens (member, closed) =>
      Line Tolerated classname (word :: tokens) member closed := by
  intro stream result rest
  by_cases direction : ∃ direction, fold word.text = directionWord direction
  · obtain ⟨direction, same⟩ := direction
    rw [readMember_of_direction same, accepts_readSignal.bind_eq_ok_iff]
    constructor
    · rintro ⟨tokens, ⟨signal, closed⟩, _, rfl, read, ran⟩
      cases ran
      exact ⟨tokens, rfl, .signal string same read⟩
    · rintro ⟨tokens, rfl, line⟩
      obtain ⟨member, closed⟩ := result
      cases line with
      | signal _ other read =>
        obtain rfl := directionWord_injective (same.symm.trans other)
        exact ⟨_, (_, _), _, rfl, read, rfl⟩
      | keyValue _ none => exact (none direction same).elim
  · have other := not_exists.mp direction
    rw [readMember_of_name other, (accepts_readKeyValue _ _).bind_eq_ok_iff]
    constructor
    · rintro ⟨tokens, ⟨keyValue, closed⟩, _, rfl, read, ran⟩
      cases ran
      exact ⟨tokens, rfl, .keyValue string other read⟩
    · rintro ⟨tokens, rfl, line⟩
      obtain ⟨member, closed⟩ := result
      cases line with
      | signal _ same _ => exact (other _ same).elim
      | keyValue _ _ read => exact ⟨_, (_, _), _, rfl, read, rfl⟩

theorem Member.name_enter (entity : EntityClass) (member : Member) :
    (member.enter entity).name = entity.name := by
  cases member with
  | keyValue property => rfl
  | signal direction signal => cases direction <;> rfl

theorem body_of_readBody {entity result : EntityClass} {stream rest : TokenStream}
    (read : readBody entity stream = (result, .ok () rest)) :
    ∃ tokens members, stream = ahead tokens rest ∧ Body Tolerated entity.name tokens members ∧
      result = members.foldl Member.enter entity := by
  fun_induction readBody with
  | case1 entity token more bracket =>
    cases read
    exact ⟨[token], [], rfl, .close bracket, rfl⟩
  | case2 entity token more lineBreak ih =>
    obtain ⟨tokens, members, rfl, body, rfl⟩ := ih read
    exact ⟨token :: tokens, members, rfl, .skip lineBreak body, rfl⟩
  | case3 entity token more string member after found =>
    cases read
    obtain ⟨tokens, rfl, line⟩ := (accepts_readMember _ string _ _ _).mp found
    exact ⟨token :: tokens, [member], rfl, .last line, rfl⟩
  | case4 entity token more string member closed after found goesOn ih =>
    obtain ⟨back, members, rfl, body, rfl⟩ := ih read
    obtain ⟨front, rfl, line⟩ := (accepts_readMember _ string _ _ _).mp found
    rw [Bool.not_eq_true] at goesOn
    rw [goesOn] at line
    rw [Member.name_enter] at body
    exact ⟨token :: front ++ back, member :: members, by simp, .more line body, rfl⟩
  | _ => cases read

theorem Line.exists_word {ends : TokenKind → Prop} {classname : String} {tokens : List Token}
    {member : Member} {closed : Bool} (line : Line ends classname tokens member closed) :
    ∃ word others, tokens = word :: others ∧ word.kind = .string := by
  cases line with
  | signal string _ _ => exact ⟨_, _, rfl, string⟩
  | keyValue string _ _ => exact ⟨_, _, rfl, string⟩

theorem readMember_of_line {classname : String} {tokens : List Token} {member : Member}
    {closed : Bool} (line : Line Tolerated classname tokens member closed) (rest : TokenStream) :
    ∃ word others, tokens = word :: others ∧ word.kind = .string ∧
      readMember classname word.text (ahead others rest) = .ok (member, closed) rest := by
  obtain ⟨word, others, rfl, string⟩ := line.exists_word
  exact ⟨word, others, rfl, string, (accepts_readMember _ string _ _ _).mpr ⟨_, rfl, line⟩⟩

theorem readBody_token {entity : EntityClass} {word : Token} {member : Member} {closed : Bool}
    {stream after : TokenStream} (string : word.kind = .string)
    (found : readMember entity.name word.text stream = .ok (member, closed) after) :
    readBody entity (.token word stream) =
      if closed then (member.enter entity, .ok () after)
      else readBody (member.enter entity) after := by
  rw [readBody]
  simp only [string]
  split
  · rename_i read
    rw [found] at read
    cases read
    rfl
  · rename_i read
    rw [found] at read
    cases read

/-- A line that fails ends the body and leaves no trace in the class. -/
theorem readBody_of_failed {entity : EntityClass} {word : Token} {fault : Fault}
    {stream after : TokenStream} (string : word.kind = .string)
    (failed : readMember entity.name word.text stream = .error fault after) :
    readBody entity (.token word stream) = (entity, .error fault after) := by
  rw [readBody]
  simp only [string]
  split
  · rename_i read
    rw [failed] at read
    cases read
  · rename_i read
    rw [failed] at read
    cases read
    rfl

theorem readBody_of_body {classname : String} {tokens : List Token} {members : List Member}
    (body : Body Tolerated classname tokens members) {entity : EntityClass}
    (named : entity.name = classname) (rest : TokenStream) :
    readBody entity (ahead tokens rest) = (members.foldl Member.enter entity, .ok () rest) := by
  rw [Body] at body
  induction body generalizing entity with
  | close bracket => simp [readBody, bracket]
  | skip lineBreak _ ih =>
    rw [TokenStream.ahead_cons, readBody]
    simp only [lineBreak]
    exact ih named
  | more line _ ih =>
    rw [← named] at line
    obtain ⟨word, others, rfl, string, found⟩ := readMember_of_line line (ahead _ rest)
    rw [TokenStream.ahead_append, TokenStream.ahead_cons, readBody_token string found,
      if_neg Bool.false_ne_true]
    exact ih ((Member.name_enter entity _).trans named)
  | last line =>
    rw [← named] at line
    obtain ⟨word, others, rfl, string, found⟩ := readMember_of_line line rest
    rw [TokenStream.ahead_cons, readBody_token string found, if_pos rfl]
    rfl

/-- What the reader of bodies reads, and what it makes of that. -/
theorem readBody_eq_ok_iff {entity result : EntityClass} {stream rest : TokenStream} :
    readBody entity stream = (result, .ok () rest) ↔
      ∃ tokens members, stream = ahead tokens rest ∧
        Body Tolerated entity.name tokens members ∧
        result = members.foldl Member.enter entity := by
  constructor
  · exact body_of_readBody
  · rintro ⟨tokens, members, rfl, body, rfl⟩
    exact readBody_of_body body rfl rest

end EntitySchema.Grammar
