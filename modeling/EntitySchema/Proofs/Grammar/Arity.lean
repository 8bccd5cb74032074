import EntitySchema.Proofs.Grammar.RoundTrip
import EntitySchema.Proofs.Outcome

/-! How many attributes there may be. Lines and entries are read with the same reader of
attributes, and each of them says by itself how many it can take and what they stand for. -/
namespace EntitySchema.Grammar

open TokenStream (ahead)

section

variable {α β : Type} {parser : Parser α} {stream rest : TokenStream} {value : α}

/-- What is made of a value that is given up to a limit is given up to that limit. -/
theorem bind_of_counted {few : Prop} [Decidable few] {fault : Fault}
    (read : parser stream = if few then .ok value rest else .error fault rest)
    {next : α → Parser β} {new : β} (made : next value rest = .ok new rest) :
    (parser >>= next) stream = if few then .ok new rest else .error fault rest := by
  by_cases fits : few
  · rw [if_pos fits] at read ⊢
    rw [bind_of_ran read, made]
  · rw [if_neg fits] at read ⊢
    exact bind_of_failed read

end

variable {front : List Token} {texts : List String} {last : Token}

section

variable (attributes : Attributes .separator front texts) (ends : EndsLine last.kind)

include attributes ends

theorem readAttributes_endsLine (rest : TokenStream) :
    readAttributes .separator [] (ahead (front ++ [last]) rest) = .ok (texts, last) rest :=
  readAttributes_of_attributes attributes (Or.inl (tolerated_of_endsLine ends)) [] rest

/-- The fields of an entry. -/
theorem readFields_counted (key value : String) (limit : Nat) (rest : TokenStream) :
    readFields key value limit (ahead (front ++ [last]) rest) =
      if texts.length = 0 then .error (last.malformed (.missingLabel value key)) rest
      else if texts.length ≤ limit then .ok (texts, last) rest
      else .error (last.semantic (.badListEntry key value texts.length)) rest := by
  have unequal : last.kind ≠ .equals := (tolerated_iff.mp (tolerated_of_endsLine ends)).2
  rw [readFields, bind_of_ran (readAttributes_endsLine attributes ends rest)]
  simp only [if_neg unequal, List.isEmpty_iff_length_eq_zero, gt_iff_lt, ← Nat.not_le, ite_not]
  split
  · rfl
  · split <;> rfl

theorem readSignal_counted {names types : List Token} {name : Token} {type : ValueType}
    (named : Expected .string names name) (typed : Typed types type)
    (plain : type.hasList = false) (rest : TokenStream) :
    readSignal (ahead (names ++ (types ++ (front ++ [last]))) rest) =
      if texts.length ≤ 1 then
        .ok (⟨name.text, type, texts.headD ""⟩, last.kind = .bracketClose) rest
      else .error (last.semantic (.tooManyIoAttributes name.text)) rest := by
  have unequal : last.kind ≠ .equals := (tolerated_iff.mp (tolerated_of_endsLine ends)).2
  obtain ⟨token, arguments, known⟩ := typed
  have first : TokenStream.expect .string (ahead (names ++ (types ++ (front ++ [last]))) rest) =
      .ok name _ := (accepts_expect (by decide) (by decide) _ _ _).mpr
    ⟨names, TokenStream.ahead_append _ _ _, named⟩
  have second : readType (ahead (types ++ (front ++ [last])) rest) = .ok (type, token) _ :=
    (accepts_readType _ _ _).mpr ⟨types, TokenStream.ahead_append _ _ _, arguments, known⟩
  rw [readSignal, bind_of_ran first, bind_of_ran second]
  simp only [plain, Bool.false_eq_true, if_false]
  rw [bind_of_ran (readAttributes_endsLine attributes ends rest)]
  simp only [if_neg unequal, gt_iff_lt, ← Nat.not_le, ite_not]
  split <;> rfl

theorem readKeyValue_counted {types mark : List Token} {type : ValueType} {readonly : Bool}
    (typed : Typed types type) (plain : type.hasList = false) (marked : Marked mark readonly)
    (classname name : String) (rest : TokenStream) :
    readKeyValue classname name (ahead (types ++ (mark ++ front ++ [last])) rest) =
      if texts.length ≤ 3 then
        .ok (declared name type readonly texts, last.kind = .bracketClose) rest
      else .error (last.semantic (.tooManyAttributes name texts.length)) rest := by
  have tolerated := tolerated_of_endsLine ends
  have unequal : last.kind ≠ .equals := (tolerated_iff.mp tolerated).2
  obtain ⟨token, arguments, known⟩ := typed
  have first : readType (ahead (types ++ (mark ++ front ++ [last])) rest) = .ok (type, token) _ :=
    (accepts_readType _ _ _).mpr ⟨types, TokenStream.ahead_append _ _ _, arguments, known⟩
  have second : readMarkAndAttributes (ahead (mark ++ front ++ [last]) rest) =
      .ok (readonly, texts, last) rest :=
    (accepts_readMarkAndAttributes _ _ _).mpr
      ⟨_, rfl, .intro marked attributes (Or.inl tolerated) fun _ => Or.inl ends⟩
  rw [readKeyValue, bind_of_ran first]
  dsimp only
  rw [bind_of_ran second]
  simp only [plain, Bool.false_eq_true, if_false, if_neg unequal, gt_iff_lt, ← Nat.not_le, ite_not]
  split <;> rfl

end

/-- What lines are written from: pieces, and plus signs between the pieces of a text. -/
inductive Part where
  | plus
  | of (piece : Piece)

namespace Part

def spelling : Part → Spelling
  | plus => (.plus, "+")
  | of piece => piece.spelling

def written : Part → List Char
  | plus => [' ', '+']
  | of piece => piece.written

def Valid : Part → Prop
  | plus => True
  | of piece => piece.Valid

/-- A token for a part, wherever that is written. -/
def token (part : Part) : Token := ⟨part.spelling.1, part.spelling.2, ⟨0, 0, 0, 0⟩⟩

theorem cut {part : Part} (valid : part.Valid) {more : List Char}
    (ends : ∀ c ∈ more.head?, isBareWord c = false) : Cut part.written [part.spelling] more := by
  cases part with
  | plus =>
    have blank : Trivia false [' '] false := .blank (by decide) (by decide) (.done false)
    have solid : Stands false (['+'] ++ ([] ++ more)) :=
      Or.inr ⟨rfl, by decide, fun opens => nomatch opens.1⟩
    have cut : Cut ([' '] ++ (['+'] ++ [])) [(.plus, "+")] more :=
      .token blank solid (.symbol rfl) .done
    exact cut
  | of piece => exact Piece.cut valid ends

end Part

theorem cut_parts {parts : List Part} (valid : ∀ part ∈ parts, part.Valid) {more : List Char}
    (ends : ∀ c ∈ more.head?, isBareWord c = false) :
    Cut (parts.flatMap Part.written) (parts.map Part.spelling) more := by
  refine cut_flatMap (fun part member => ?_) ends
  refine ⟨?_, ?_, fun _ => Part.cut (valid part member)⟩
  · cases part with
    | plus => exact List.cons_ne_nil _ _
    | of piece => exact piece.written_ne_nil
  · cases part with
    | plus => simp [Part.written]; decide
    | of piece => exact piece.head?_written

/-- A text in pieces between quotes with plus signs between them, or left empty. -/
def textParts : List String → List Part
  | [] => []
  | first :: others =>
    .of (.quoted first) :: others.flatMap fun other => [.plus, .of (.quoted other)]

/-- Attributes with a colon before each, every one by the pieces it is written in. -/
def attributeParts (attributes : List (List String)) : List Part :=
  attributes.flatMap fun pieces => .of .colon :: textParts pieces

theorem joined_parts (text : String) (pieces : List String) :
    Joined text ((pieces.flatMap fun piece => [.plus, .of (.quoted piece)]).map Part.token)
      (pieces.foldl (· ++ ·) text) := by
  induction pieces generalizing text with
  | nil => exact .done text
  | cons piece pieces ih =>
    have empty : Breaks [] := nofun
    exact .piece rfl empty rfl (ih (text ++ piece))

/-- What is written piece by piece are the attributes that the pieces make up. -/
theorem attributes_parts {attributes : List (List String)}
    (filled : ∀ pieces ∈ attributes.getLast?, pieces ≠ []) :
    Attributes .separator ((attributeParts attributes).map Part.token)
      (attributes.map String.join) := by
  induction attributes with
  | nil => exact .done
  | cons pieces attributes ih =>
    cases pieces with
    | nil =>
      cases attributes with
      | nil => exact (filled [] rfl rfl).elim
      | cons next attributes =>
        -- nothing up to the next colon
        cases ih (by simpa using filled) with
        | colon colon behind => exact .colon rfl (.blank rfl behind)
    | cons first others =>
      have behind : Attributes .separator ((attributeParts attributes).map Part.token)
          (attributes.map String.join) := by
        cases attributes with
        | nil => exact .done
        | cons next attributes => exact ih (by simpa using filled)
      have whole : String.join (first :: others) = others.foldl (· ++ ·) first := by
        rw [String.join, List.foldl_cons, String.empty_append]
      rw [List.map_cons, whole, attributeParts, List.flatMap_cons, List.map_append]
      exact .colon rfl (.text rfl (joined_parts first others) behind)

/-- A line or an entry: what stands in front of its attributes, those, and its end. -/
def lineParts (front : List Piece) (attributes : List (List String)) (ending : Piece) :
    List Part :=
  front.map Part.of ++ (attributeParts attributes ++ [.of ending])

def writtenLine (front : List Piece) (attributes : List (List String)) (ending : Piece) :
    List Char :=
  (lineParts front attributes ending).flatMap Part.written

theorem valid_attributeParts (attributes : List (List String)) :
    ∀ part ∈ attributeParts attributes, part.Valid := by
  have quoted : ∀ pieces, ∀ part ∈ textParts pieces, part.Valid := by
    intro pieces part inside
    cases pieces with
    | nil => cases inside
    | cons first others =>
      obtain rfl | later := List.mem_cons.mp inside
      · exact True.intro
      · obtain ⟨other, -, either⟩ := List.mem_flatMap.mp later
        obtain rfl | rfl : part = .plus ∨ part = Part.of (.quoted other) := by simpa using either
        · exact True.intro
        · exact True.intro
  intro part inside
  obtain ⟨pieces, -, within⟩ := List.mem_flatMap.mp inside
  obtain rfl | later := List.mem_cons.mp within
  · exact True.intro
  · exact quoted pieces part later

variable {attributes : List (List String)} {ending : Piece}

/-- A line that is written out is read as what stands in front, attributes and an end. -/
theorem exists_line {front : List Piece} (valid : ∀ piece ∈ front, piece.Valid)
    (filled : ∀ pieces ∈ attributes.getLast?, pieces ≠ [])
    (ends : ending = .lineBreak ∨ ending = .closing) (more : List Char) (mark : Mark) :
    ∃ words fields last, Alike (row front) words ∧
      Attributes .separator fields (attributes.map String.join) ∧
      last.spelling = ending.spelling ∧
      Cursor.stream ⟨writtenLine front attributes ending ++ more, mark⟩ =
        ahead (words ++ (fields ++ [last]))
          (Cursor.stream ⟨more, mark.after (writtenLine front attributes ending)⟩) := by
  have allValid : ∀ part ∈ lineParts front attributes ending, part.Valid := by
    intro part inside
    obtain inFront | behind := List.mem_append.mp inside
    · obtain ⟨piece, member, rfl⟩ := List.mem_map.mp inFront
      exact valid piece member
    · obtain between | last := List.mem_append.mp behind
      · exact valid_attributeParts attributes part between
      · obtain rfl := List.mem_singleton.mp last
        obtain rfl | rfl := ends <;> exact True.intro
  have closed : ∀ spelling ∈ ((lineParts front attributes ending).map Part.spelling).getLast?,
      spelling.1 ≠ .string := by
    obtain rfl | rfl := ends <;> simp [lineParts, Part.spelling, Piece.spelling]
  have cut : Cut (writtenLine front attributes ending)
      ((lineParts front attributes ending).map Part.spelling) [] := cut_parts allValid nofun
  obtain ⟨tokens, spelled, found⟩ := (cut.move closed more).stream mark
  have alike : Alike ((lineParts front attributes ending).map Part.token) tokens := by
    rw [Alike, spelled, List.map_map]
    rfl
  rw [lineParts, List.map_append, List.map_append] at alike
  obtain ⟨words, rest, rfl, same, behind⟩ := alike.of_append
  obtain ⟨fields, lasts, rfl, described, further⟩ := behind.of_append
  obtain ⟨last, rfl, kind, text⟩ := further.of_singleton
  rw [List.map_map] at same
  exact ⟨words, fields, last, same, (attributes_parts filled).respelled described,
    Prod.ext kind text, found⟩

/-- A word, bare or between quotes. -/
def Piece.Writes (piece : Piece) (word : String) : Prop :=
  piece.Valid ∧ piece.spelling = (.string, word)

/-- What becomes of a body behind a line that has been read. -/
def bodyBehind (entity : EntityClass) (member : Member) (last : Token) (rest : TokenStream) :
    EntityClass × EStateM.Result Fault TokenStream Unit :=
  if last.kind = .bracketClose then (member.enter entity, .ok () rest)
  else readBody (member.enter entity) rest

/-- What becomes of a list behind an entry that has been read. -/
def entriesBehind {α : Type} (key : String) (limit : Nat)
    (entry : String → List String → Except SemanticProblem α) (held : List α) (last : Token)
    (rest : TokenStream) : EStateM.Result Fault TokenStream (List α) :=
  if last.kind = .bracketClose then .ok held.reverse rest
  else readEntries key limit entry held rest

/-- What becomes of a line or an entry in front of more text, by the number of its attributes. If
they are too many, the fault lies at the end of the line. -/
structure Arity (attributes : List (List String)) (ending : Piece) (more : List Char)
    (mark : Mark) : Prop where
  /-- A keyvalue without a list takes three: its name for display, if it is another one, its
  initial value and its description. -/
  keyValue {entity : EntityClass} {title : Piece} {name keyword : String} {marks : List Piece}
      {type : ValueType} {readonly : Bool} :
    title.Writes name → (∀ direction, fold name ≠ directionWord direction) →
    (Piece.arguments keyword).Valid → ValueType.ofKeyword? keyword = some type →
    type.hasList = false → (∀ piece ∈ marks, piece.Valid) → Marked (row marks) readonly →
    let line := writtenLine (title :: .arguments keyword :: marks) attributes ending
    let rest := Cursor.stream ⟨more, mark.after line⟩
    ∃ last : Token, last.spelling = ending.spelling ∧
      readBody entity (Cursor.stream ⟨line ++ more, mark⟩) =
        if attributes.length ≤ 3 then
          bodyBehind entity
            (.keyValue (declared name type readonly (attributes.map String.join))) last rest
        else (entity, .error (last.semantic (.tooManyAttributes name attributes.length)) rest)
  /-- An input or output takes one: its description. -/
  signal {entity : EntityClass} {direction : Direction} {word title : Piece}
      {text name keyword : String} {type : ValueType} :
    word.Writes text → fold text = directionWord direction → title.Writes name →
    (Piece.arguments keyword).Valid → ValueType.ofKeyword? keyword = some type →
    type.hasList = false →
    let line := writtenLine [word, title, .arguments keyword] attributes ending
    let rest := Cursor.stream ⟨more, mark.after line⟩
    ∃ last : Token, last.spelling = ending.spelling ∧
      readBody entity (Cursor.stream ⟨line ++ more, mark⟩) =
        if attributes.length ≤ 1 then
          bodyBehind entity
            (.signal direction ⟨name, type, (attributes.map String.join).headD ""⟩) last rest
        else (entity, .error (last.semantic (.tooManyIoAttributes name)) rest)
  /-- A flag takes one or two: its label, and whether it is set initially. -/
  flag {classname key value : String} {title : Piece} {bit : FlagBit} {held : List FlagEntry} :
    title.Writes value → flagBit value classname = .ok bit →
    let line := writtenLine [title] attributes ending
    let rest := Cursor.stream ⟨more, mark.after line⟩
    let texts := attributes.map String.join
    ∃ last : Token, last.spelling = ending.spelling ∧
      readEntries key 2 (flagEntry classname) held (Cursor.stream ⟨line ++ more, mark⟩) =
        if attributes.length = 0 then .error (last.malformed (.missingLabel value key)) rest
        else if attributes.length ≤ 2 then
          entriesBehind key 2 (flagEntry classname)
            (⟨bit, texts.headD "", texts[1]?.any initiallySet⟩ :: held) last rest
        else .error (last.semantic (.badListEntry key value attributes.length)) rest
  /-- A choice takes one: its label. -/
  choice {key value : String} {title : Piece} {held : List Choice} :
    title.Writes value →
    let line := writtenLine [title] attributes ending
    let rest := Cursor.stream ⟨more, mark.after line⟩
    ∃ last : Token, last.spelling = ending.spelling ∧
      readEntries key 1 choice held (Cursor.stream ⟨line ++ more, mark⟩) =
        if attributes.length = 0 then .error (last.malformed (.missingLabel value key)) rest
        else if attributes.length ≤ 1 then
          entriesBehind key 1 choice
            (⟨value, (attributes.map String.join).headD ""⟩ :: held) last rest
        else .error (last.semantic (.badListEntry key value attributes.length)) rest

theorem endsLine_of_spelling {last : Token} (same : last.spelling = ending.spelling)
    (ends : ending = .lineBreak ∨ ending = .closing) : EndsLine last.kind := by
  have kind : last.kind = ending.spelling.1 := congrArg Prod.fst same
  obtain rfl | rfl := ends
  · exact Or.inl kind
  · exact Or.inr kind

/-- A body goes on behind a line unless that has too many attributes. -/
theorem readBody_of_counted {entity : EntityClass} {word : Token} {stream rest : TokenStream}
    {member : Member} {fault : Fault} {few : Prop} [Decidable few] (string : word.kind = .string)
    (read : readMember entity.name word.text stream =
      if few then .ok (member, last.kind = .bracketClose) rest else .error fault rest) :
    readBody entity (.token word stream) =
      if few then bodyBehind entity member last rest else (entity, .error fault rest) := by
  split at read
  · rename_i fits
    rw [if_pos fits, readBody_token string read, bodyBehind]
    simp only [decide_eq_true_eq]
  · rename_i many
    rw [if_neg many, readBody_of_failed string read]

section

variable (filled : ∀ pieces ∈ attributes.getLast?, pieces ≠ [])
  (ends : ending = .lineBreak ∨ ending = .closing)

include filled ends

/-- An entry with attributes that make sense if they are not too many. -/
theorem readEntries_written {α : Type} {limit : Nat}
    {entry : String → List String → Except SemanticProblem α} {key value : String}
    {title : Piece} {new : α} (written : title.Writes value)
    (made : entry value (attributes.map String.join) = .ok new) (held : List α)
    (more : List Char) (mark : Mark) :
    let line := writtenLine [title] attributes ending
    let rest := Cursor.stream ⟨more, mark.after line⟩
    ∃ last : Token, last.spelling = ending.spelling ∧
      readEntries key limit entry held (Cursor.stream ⟨line ++ more, mark⟩) =
        if attributes.length = 0 then .error (last.malformed (.missingLabel value key)) rest
        else if attributes.length ≤ limit then
          entriesBehind key limit entry (new :: held) last rest
        else .error (last.semantic (.badListEntry key value attributes.length)) rest := by
  intro line rest
  obtain ⟨valid, spelling⟩ := written
  obtain ⟨words, fields, last, alike, described, same, found⟩ :=
    exists_line (List.forall_mem_singleton.mpr valid) filled ends more mark
  obtain ⟨word, rfl, kind, text⟩ := alike.of_singleton
  obtain rfl : word.text = value := text.trans (congrArg Prod.snd spelling)
  have string : word.kind = .string := kind.trans (congrArg Prod.fst spelling)
  have read := readFields_counted described (endsLine_of_spelling same ends) key word.text limit rest
  rw [List.length_map] at read
  refine ⟨last, same, ?_⟩
  rw [found, List.singleton_append, TokenStream.ahead_cons]
  split at read
  · rename_i none
    rw [if_pos none, readEntries_of_failed string read]
  · rename_i some
    rw [if_neg some]
    split at read
    · rename_i few
      rw [if_pos few, readEntries_token string read made]
      rfl
    · rename_i many
      rw [if_neg many, readEntries_of_failed string read]

/-- Whatever the attributes say and however they are pieced together, lines and entries take as
many of them as they have a use for and no more. -/
theorem attributes_counted (more : List Char) (mark : Mark) :
    Arity attributes ending more mark where
  keyValue {entity title name keyword marks type readonly} written plain valid known listless
      validMarks marked := by
    intro line rest
    obtain ⟨validTitle, spelling⟩ := written
    have allValid : ∀ piece ∈ title :: .arguments keyword :: marks, piece.Valid :=
      List.forall_mem_cons.mpr ⟨validTitle, List.forall_mem_cons.mpr ⟨valid, validMarks⟩⟩
    obtain ⟨words, fields, last, alike, described, same, found⟩ :=
      exists_line allValid filled ends more mark
    obtain ⟨word, others, rfl, kind, text, behind⟩ := alike.of_cons
    change Alike (row [.arguments keyword] ++ row marks) others at behind
    obtain ⟨types, mark, rfl, typed, marks⟩ := behind.of_append
    obtain rfl : word.text = name := text.trans (congrArg Prod.snd spelling)
    have string : word.kind = .string := kind.trans (congrArg Prod.fst spelling)
    have read := readKeyValue_counted described (endsLine_of_spelling same ends)
      ((typed_of_keyword known).respelled typed) listless (marked.respelled marks) entity.name
      word.text rest
    rw [List.length_map] at read
    refine ⟨last, same, ?_⟩
    rw [found, List.cons_append, TokenStream.ahead_cons, List.append_assoc types,
      ← List.append_assoc mark]
    refine readBody_of_counted string ?_
    rw [readMember_of_name plain]
    exact bind_of_counted read rfl
  signal {entity direction word title text name keyword type} written folded named valid known
      listless := by
    intro line rest
    obtain ⟨validWord, spelling⟩ := written
    obtain ⟨validTitle, spelled⟩ := named
    have allValid : ∀ piece ∈ [word, title, .arguments keyword], piece.Valid :=
      List.forall_mem_cons.mpr ⟨validWord, List.forall_mem_cons.mpr
        ⟨validTitle, List.forall_mem_singleton.mpr valid⟩⟩
    obtain ⟨words, fields, last, alike, described, same, found⟩ :=
      exists_line allValid filled ends more mark
    obtain ⟨first, others, rfl, kind, firstText, behind⟩ := alike.of_cons
    change Alike (row [title] ++ row [.arguments keyword]) others at behind
    obtain ⟨names, types, rfl, second, typed⟩ := behind.of_append
    obtain rfl : first.text = text := firstText.trans (congrArg Prod.snd spelling)
    have string : first.kind = .string := kind.trans (congrArg Prod.fst spelling)
    have expected : Expected .string (row [title]) title.token :=
      ⟨[], rfl, nofun, congrArg Prod.fst spelled⟩
    obtain ⟨called, expected, calledText⟩ := expected.respelled second
    obtain rfl : called.text = name := calledText.trans (congrArg Prod.snd spelled)
    have read := readSignal_counted described (endsLine_of_spelling same ends) expected
      ((typed_of_keyword known).respelled typed) listless rest
    rw [List.length_map] at read
    refine ⟨last, same, ?_⟩
    rw [found, List.cons_append, TokenStream.ahead_cons, List.append_assoc names]
    refine readBody_of_counted string ?_
    rw [readMember_of_direction folded]
    exact bind_of_counted read rfl
  flag {classname key value title bit held} written known := by
    refine readEntries_written filled ends written ?_ held more mark
    rw [flagEntry, known]
    rfl
  choice {key value title held} written :=
    readEntries_written filled ends written rfl held more mark

end

namespace Slotted

/-- A text in two pieces, one left empty and one in a single piece. -/
def slots : List (List String) := [["a", "b\""], [], ["c"]]

def entity : EntityClass := .plain .point "A"

theorem filled : ∀ pieces ∈ slots.getLast?, pieces ≠ [] := by
  simp [slots]

theorem writes_word {text : String} (some : text.toList ≠ [] ∧ text.toList.head? ≠ some '/')
    (bare : text.toList.all isBareWord = true) : (Piece.word text).Writes text :=
  ⟨⟨some, List.all_eq_true.mp bare⟩, rfl⟩

end Slotted

theorem attributes_counted_slotted :
    (∀ pieces ∈ Slotted.slots.getLast?, pieces ≠ []) ∧
      (∃ span, readBody Slotted.entity (Cursor.stream
          ⟨" skin(string) ReadOnly : \"a\" + \"b\\\"\" : : \"c\" ]".toList, .start⟩) =
        (Slotted.entity.addKeyValue ⟨"skin", .string, "ab\"", "", "c", true, none⟩,
          .ok () (.exhausted span))) ∧
      (∃ (last : Token) (rest : TokenStream), readBody Slotted.entity (Cursor.stream
          ⟨" INPUT skin(string) : \"a\" + \"b\\\"\" : : \"c\" ]".toList, .start⟩) =
        (Slotted.entity, .error (last.semantic (.tooManyIoAttributes "skin")) rest)) ∧
      (∃ (last : Token) (rest : TokenStream), readEntries "skin" 2 (flagEntry "A") []
          (Cursor.stream ⟨" 4 : \"a\" + \"b\\\"\" : : \"c\" ]".toList, .start⟩) =
        .error (last.semantic (.badListEntry "skin" "4" 3)) rest) ∧
      ∃ (last : Token) (rest : TokenStream), readEntries "skin" 1 choice []
          (Cursor.stream ⟨" 4 : \"a\" + \"b\\\"\" : : \"c\" ]".toList, .start⟩) =
        .error (last.semantic (.badListEntry "skin" "4" 3)) rest := by
  have counted : Arity Slotted.slots .closing [] .start :=
    attributes_counted Slotted.filled (Or.inr rfl) [] .start
  have skin := Slotted.writes_word (by decide : "skin".toList ≠ [] ∧ _) (by decide)
  have four := Slotted.writes_word (by decide : "4".toList ≠ [] ∧ _) (by decide)
  have input := Slotted.writes_word (by decide : "INPUT".toList ≠ [] ∧ _) (by decide)
  have mark := Slotted.writes_word (by decide : "ReadOnly".toList ≠ [] ∧ _) (by decide)
  have marked : Marked (row [.word "ReadOnly"]) (isReadonly "ReadOnly") := .word rfl
  have plain : ∀ direction, fold "skin" ≠ directionWord direction := by
    intro direction
    cases direction <;> decide
  have valid : (Piece.arguments "string").Valid := by
    simp [Piece.Valid]
  have string : ValueType.ofKeyword? "string" = some .string := by decide
  have bit : flagBit "4" "A" = .ok ⟨2⟩ := rfl
  refine ⟨Slotted.filled, ?_, ?_, ?_, ?_⟩
  · obtain ⟨last, spelled, read⟩ : ∃ last : Token, last.spelling = _ ∧
        readBody Slotted.entity _ = _ :=
      counted.keyValue skin plain valid string rfl (List.forall_mem_singleton.mpr mark.1) marked
    have closes : last.kind = .bracketClose := congrArg Prod.fst spelled
    rw [if_pos (by decide), bodyBehind, if_pos closes, Cursor.stream_nil] at read
    exact ⟨_, read⟩
  · obtain ⟨last, spelled, read⟩ : ∃ last : Token, last.spelling = _ ∧
        readBody Slotted.entity _ = _ :=
      counted.signal input (by decide : _ = directionWord .input) skin valid string rfl
    exact ⟨last, _, read⟩
  · obtain ⟨last, -, read⟩ : ∃ last : Token, last.spelling = _ ∧
        readEntries "skin" 2 _ [] _ = _ := counted.flag four bit
    exact ⟨last, _, read⟩
  · obtain ⟨last, -, read⟩ : ∃ last : Token, last.spelling = _ ∧
        readEntries "skin" 1 _ [] _ = _ := counted.choice four
    exact ⟨last, _, read⟩

end EntitySchema.Grammar
