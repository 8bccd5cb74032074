import EntitySchema.Proofs.Building
import EntitySchema.Proofs.Grammar.Endings
import EntitySchema.Proofs.Grammar.Respelling
import EntitySchema.Proofs.Grammar.Words

/-! Classes that are written in the definition language are read back without loss. What
is written is a sentence of the grammar, whatever texts it carries. -/
namespace EntitySchema.Grammar

/-- A class that can be written down: its bases wait to be linked, and its names and
arguments survive being stored. -/
structure Expressible (entity : EntityClass) : Prop where
  name : trimmed entity.name = entity.name
  bases : ∀ base ∈ entity.bases, ∃ name, base = .named name ∧ name ≠ "" ∧ fold name = name ∧
    Argument name
  distinct : entity.bases.Nodup
  helpers : ∀ helper ∈ entity.helpers, helper.kind ≠ .inherit ∧ helper.arguments ≠ [""] ∧
    ∀ argument ∈ helper.arguments, Argument argument
  kept : entity.WellKept
  words : ∀ keyValue ∈ entity.keyValues.values, ∀ direction,
    fold keyValue.name ≠ directionWord direction
  signals : ∀ signal ∈ entity.inputs.values ++ entity.outputs.values,
    signal.type.hasList = false

/-- A token for a piece, wherever that is written. -/
def Piece.token (piece : Piece) : Token := ⟨piece.spelling.1, piece.spelling.2, ⟨0, 0, 0, 0⟩⟩

/-- The tokens of a row of pieces. -/
def row (pieces : List Piece) : List Token := pieces.map Piece.token

@[simp] theorem row_nil : row [] = [] := rfl

@[simp] theorem row_cons (piece : Piece) (pieces : List Piece) :
    row (piece :: pieces) = piece.token :: row pieces := rfl

@[simp] theorem row_append (first last : List Piece) :
    row (first ++ last) = row first ++ row last := List.map_append

theorem attributes_row (texts : List String) :
    Attributes .separator (row (attributePieces texts)) texts := by
  induction texts with
  | nil => exact .done
  | cons text texts ih => exact .colon rfl (.text rfl (.done _) ih)

variable {α : Type} {item : List Token → α → Bool → Prop} {classname : String}

/-- Items that are written one a line make up a block. -/
theorem block_row {values : List α} {pieces : α → List Piece}
    (each : ∀ value ∈ values, item (row (pieces value)) value false) :
    Block item (row (values.flatMap pieces ++ [.closing])) values := by
  induction values with
  | nil => exact .close rfl
  | cons value values ih =>
    obtain ⟨first, others⟩ := List.forall_mem_cons.mp each
    rw [List.flatMap_cons, List.append_assoc, row_append]
    exact .more first (ih others)

theorem entry_choice (entry : Choice) :
    Entry EndsLine 1 choice (row (choicePieces entry)) entry false := by
  have read : Entry EndsLine 1 choice (Piece.token (.quoted entry.value) ::
      (row (attributePieces [entry.label]) ++ [Piece.token .lineBreak])) entry false :=
    .entry rfl (attributes_row [entry.label]) (by simp) (by simp) (Or.inl rfl) rfl
  exact read

theorem entry_flag {entry : FlagEntry} (small : entry.bit.power ≤ 127) :
    Entry EndsLine 2 (flagEntry classname) (row (flagPieces entry)) entry false := by
  have attributes : Attributes .separator
      (row [.colon, .quoted entry.label, .colon, .word (if entry.initial then "1" else "0")])
      [entry.label, if entry.initial then "1" else "0"] :=
    .colon rfl (.text rfl (.done _) (.colon rfl (.text rfl (.done _) .done)))
  have made : flagEntry classname (toString entry.bit.value)
      [entry.label, if entry.initial then "1" else "0"] = .ok entry := by
    have initial : initiallySet (if entry.initial then "1" else "0") = entry.initial := by
      cases entry.initial <;> decide
    rw [flagEntry, flagBit_value small]
    change Except.ok (⟨entry.bit, entry.label, initiallySet _⟩ : FlagEntry) = _
    rw [initial]
  have read : Entry EndsLine 2 (flagEntry classname)
      (Piece.token (.word (toString entry.bit.value)) :: (_ ++ [Piece.token .lineBreak])) entry
        false :=
    .entry rfl attributes (by simp) (by simp) (Or.inl rfl) made
  exact read

theorem listed_row {type : ValueType} {values : ValueList}
    (fits : ValueList.Fits type (some values))
    (small : ∀ entries, values = .flags entries → ∀ entry ∈ entries, entry.bit.power ≤ 127) :
    Listed EndsLine classname type (row (.lineBreak :: (entryPieces values ++ [.closing])))
      values := by
  cases values with
  | flags entries =>
    cases (fits : type = .flags)
    refine .flags (.skip rfl (block_row fun entry member => ?_))
    exact entry_flag (small entries rfl entry member)
  | choices entries =>
    cases (fits : type = .choices)
    exact .choices (.skip rfl (block_row fun entry _ => entry_choice entry))

theorem typed_of_keyword {keyword : String} {type : ValueType}
    (known : ValueType.ofKeyword? keyword = some type) : Typed (row [.arguments keyword]) type :=
  ⟨_, ⟨[], rfl, nofun, rfl⟩, known⟩

theorem typed_row (type : ValueType) : Typed (row [.arguments type.keyword]) type :=
  typed_of_keyword type.ofKeyword?_keyword

theorem marked_row (readonly : Bool) : Marked (row (markPieces readonly)) readonly := by
  cases readonly with
  | false => exact .plain
  | true =>
    have word : isReadonly "readonly" = true := by decide
    have marked : Marked [Piece.token (.word "readonly")] (isReadonly "readonly") := .word rfl
    rwa [word] at marked

variable {tokens : List Token} {members : List Member}

/-- A keyvalue that is written in front of further members is declared before them. -/
theorem body_keyValue {keyValue : KeyValue} (wellFormed : keyValue.WellFormed)
    (word : ∀ direction, fold keyValue.name ≠ directionWord direction)
    (rest : Body EndsLine classname tokens members) :
    Body EndsLine classname (row (keyValuePieces keyValue) ++ tokens)
      (.keyValue keyValue :: members) := by
  obtain ⟨name, type, displayName, initial, description, readonly, values⟩ := keyValue
  have typed := typed_row type
  have marked := marked_row readonly
  have attributes := attributes_row [displayName, initial, description]
  cases values with
  | none =>
    have read : KeyValued EndsLine classname name (_ ++ (_ ++ _ ++ [Piece.token .lineBreak]))
        (declared name type readonly [displayName, initial, description]) false :=
      .plain typed wellFormed.fits marked attributes (by simp) (Or.inl rfl) fun _ => Or.inl rfl
    have line : Line EndsLine classname (Piece.token (.quoted name) :: _)
        (.keyValue ⟨name, type, displayName, initial, description, readonly, none⟩) false :=
      .keyValue rfl word read
    have body : Body EndsLine classname _ _ := Block.more line rest
    simpa [keyValuePieces, listPieces] using body
  | some values =>
    have list : Listed EndsLine classname type _ values := listed_row wellFormed.fits (by
      rintro entries rfl
      exact wellFormed.powers)
    have opening : Expected .bracketOpen [Piece.token .opening] _ := ⟨[], rfl, nofun, rfl⟩
    have read : KeyValued EndsLine classname name
        (_ ++ (_ ++ _ ++ [Piece.token .equals] ++ (_ ++ _)))
        { declared name type readonly [displayName, initial, description] with
          values := some values } false :=
      .listed typed marked attributes (by simp) rfl opening list
    have line : Line EndsLine classname (Piece.token (.quoted name) :: _)
        (.keyValue ⟨name, type, displayName, initial, description, readonly, some values⟩) false :=
      .keyValue rfl word read
    have body : Body EndsLine classname _ _ :=
      Block.more line (.skip (rfl : (Piece.token .lineBreak).kind = .newline) rest)
    simpa [keyValuePieces, listPieces] using body

theorem body_signal (direction : Direction) {signal : Signal}
    (plain : signal.type.hasList = false) (rest : Body EndsLine classname tokens members) :
    Body EndsLine classname (row (signalPieces direction signal) ++ tokens)
      (.signal direction signal :: members) := by
  have folded : fold (directionWord direction) = directionWord direction :=
    fold_of_isKeyword (by cases direction <;> decide)
  have attributes := attributes_row [signal.description]
  have named : Expected .string [Piece.token (.quoted signal.name)] _ := ⟨[], rfl, nofun, rfl⟩
  have read : Signalled EndsLine (_ ++ (_ ++ (_ ++ [Piece.token .lineBreak]))) signal false :=
    .signal named (typed_row signal.type) plain attributes (by simp) (Or.inl rfl)
  have line : Line EndsLine classname (Piece.token (.word (directionWord direction)) :: _) _
      false := .signal rfl folded read
  have body : Body EndsLine classname _ _ := Block.more line rest
  simpa [signalPieces] using body

theorem body_members {values : List α} {pieces : α → List Piece} {member : α → Member}
    (each : ∀ value ∈ values, ∀ {tokens members}, Body EndsLine classname tokens members →
      Body EndsLine classname (row (pieces value) ++ tokens) (member value :: members))
    (rest : Body EndsLine classname tokens members) :
    Body EndsLine classname (row (values.flatMap pieces) ++ tokens)
      (values.map member ++ members) := by
  induction values with
  | nil => exact rest
  | cons value values ih =>
    obtain ⟨first, others⟩ := List.forall_mem_cons.mp each
    rw [List.flatMap_cons, row_append, List.append_assoc]
    exact first (ih others)

/-- The members of a class, in the order in which they are written. -/
def writtenMembers (entity : EntityClass) : List Member :=
  entity.keyValues.values.map .keyValue ++ (entity.inputs.values.map (.signal .input) ++
    (entity.outputs.values.map (.signal .output) ++ []))

theorem body_row {entity : EntityClass} (expressible : Expressible entity) :
    Body EndsLine entity.name (row (bodyPieces entity)) (writtenMembers entity) := by
  obtain ⟨inputs, outputs⟩ := List.forall_mem_append.mp expressible.signals
  have closed : Body EndsLine entity.name (row [.closing]) [] := Block.close rfl
  have emitted := body_members (fun signal member => body_signal .output (outputs signal member))
    closed
  have received := body_members (fun signal member => body_signal .input (inputs signal member))
    emitted
  have body := body_members (fun keyValue member => body_keyValue
    (expressible.kept.lists keyValue member) (expressible.words keyValue member)) received
  rw [bodyPieces, row_cons, row_append, row_append, row_append]
  exact Block.skip rfl body

theorem enterHelper_of_ne {kind : HelperKind} (other : kind ≠ .inherit) (entity : EntityClass)
    (arguments : List String) :
    enterHelper entity kind arguments = entity.addHelper ⟨kind, arguments⟩ := by
  cases kind <;> first | rfl | exact (other rfl).elim

theorem helped_row {entity result : EntityClass} {helper : Helper}
    (plain : ∀ argument ∈ helper.arguments, Argument argument) (some : helper.arguments ≠ [""])
    (rest : Helped (enterHelper entity helper.kind helper.arguments) none tokens result) :
    Helped entity none (row (helperPieces helper) ++ tokens) result := by
  rw [← splitArguments_joined plain some] at rest
  exact .kind rfl (HelperKind.ofKeyword?_keyword _) (.arguments rfl rest)

theorem helped_helpers {entity result : EntityClass} {helpers : List Helper}
    (plain : ∀ helper ∈ helpers, helper.kind ≠ .inherit ∧ helper.arguments ≠ [""] ∧
      ∀ argument ∈ helper.arguments, Argument argument)
    (rest : Helped { entity with helpers := entity.helpers ++ helpers } none tokens result) :
    Helped entity none (row (helpers.flatMap helperPieces) ++ tokens) result := by
  induction helpers generalizing entity with
  | nil => simpa using rest
  | cons helper helpers ih =>
    obtain ⟨⟨other, some, arguments⟩, others⟩ := List.forall_mem_cons.mp plain
    rw [List.flatMap_cons, row_append, List.append_assoc]
    apply helped_row arguments some
    rw [enterHelper_of_ne other]
    apply ih others
    simpa [EntityClass.addHelper] using rest

theorem Expressible.names {entity : EntityClass} (expressible : Expressible entity) :
    entity.bases = entity.names.map .named ∧
      ∀ name ∈ entity.names, name ≠ "" ∧ fold name = name ∧ Argument name := by
  have unlinked : entity.links = [] := by
    refine List.eq_nil_iff_forall_not_mem.mpr fun id inside => ?_
    obtain ⟨name, same, -⟩ := expressible.bases _ (EntityClass.mem_links.mp inside)
    cases same
  refine ⟨EntityClass.bases_eq_of_unlinked unlinked, fun name inside => ?_⟩
  obtain ⟨other, same, plain⟩ := expressible.bases _ (EntityClass.mem_names.mp inside)
  cases same
  exact plain

/-- A class without its members. -/
def headOf (entity : EntityClass) : EntityClass :=
  { EntityClass.plain entity.category entity.name with
    bases := entity.bases, helpers := entity.helpers, description := entity.description }

theorem head_row {entity : EntityClass} (expressible : Expressible entity) :
    Headed entity.category (row (headPieces entity)) (headOf entity) := by
  obtain ⟨bases, names⟩ := expressible.names
  have stored : entity.names.map EntityClass.baseNamed = entity.bases := by
    rw [bases]
    refine List.map_congr_left fun name inside => ?_
    obtain ⟨-, folded, bare, -⟩ := names name inside
    rw [EntityClass.baseNamed, bare, folded]
  have filled : entity.names ≠ [""] := by
    intro empty
    exact (names "" (by simp [empty])).1 rfl
  have inherited : enterHelper (.plain entity.category "") .inherit entity.names =
      { EntityClass.plain entity.category "" with bases := entity.bases } := by
    have distinct : ((EntityClass.plain entity.category "").bases ++
        entity.names.map EntityClass.baseNamed).Nodup := by
      rw [stored]
      exact expressible.distinct
    have added := EntityClass.foldl_addBase distinct
    rw [stored] at added
    exact added
  have closed : Helped { EntityClass.plain entity.category "" with
      bases := entity.bases, helpers := [] ++ entity.helpers } none (row [.equals]) _ := .close rfl
  have helped : Helped (.plain entity.category "") none
      (row (helperPieces ⟨.inherit, entity.names⟩) ++ _) _ :=
    helped_row (fun name inside => (names name inside).2.2) filled
      (by rw [inherited]; exact helped_helpers expressible.helpers closed)
  have explained : Explained none false (row (attributePieces [entity.description] ++ [.opening]))
      (String.join [entity.description]) := .colon rfl (.first rfl (.close rfl))
  have named : Expected .string [Piece.token (.quoted entity.name)] _ := ⟨[], rfl, nofun, rfl⟩
  have headed := Headed.head helped named explained
  have titled : trimmed (Piece.token (.quoted entity.name)).text = entity.name := expressible.name
  rw [titled] at headed
  simpa [headPieces, headOf, enterPending, EntityClass.plain, String.join] using headed

/-- Entered into a class without members, those that are written make up the class again. -/
theorem foldl_writtenMembers {entity : EntityClass} (kept : entity.WellKept) :
    (writtenMembers entity).foldl Member.enter (headOf entity) = entity := by
  have keyValues := kept.keyValues.foldl_insert_values
  have inputs := kept.inputs.foldl_insert_values
  have outputs := kept.outputs.foldl_insert_values
  rw [writtenMembers, List.append_nil, List.foldl_append, List.foldl_append, List.foldl_map,
    List.foldl_map, List.foldl_map]
  change entity.outputs.values.foldl (EntityClass.addSignal · .output)
    (entity.inputs.values.foldl (EntityClass.addSignal · .input)
      (entity.keyValues.values.foldl EntityClass.addKeyValue (headOf entity))) = entity
  rw [EntityClass.foldl_addKeyValue, EntityClass.foldl_addSignal_input,
    EntityClass.foldl_addSignal_output]
  simp only [headOf, EntityClass.plain, keyValues, inputs, outputs]

/-- Rows of pieces that can all be written. -/
def Sound (pieces : List Piece) : Prop := ∀ piece ∈ pieces, piece.Valid

@[simp] theorem sound_nil : Sound [] := nofun

@[simp] theorem sound_cons {piece : Piece} {pieces : List Piece} :
    Sound (piece :: pieces) ↔ piece.Valid ∧ Sound pieces := List.forall_mem_cons

@[simp] theorem sound_append {first last : List Piece} :
    Sound (first ++ last) ↔ Sound first ∧ Sound last := List.forall_mem_append

theorem sound_flatMap {values : List α} {pieces : α → List Piece}
    (each : ∀ value ∈ values, Sound (pieces value)) : Sound (values.flatMap pieces) := by
  intro piece inside
  obtain ⟨value, member, within⟩ := List.mem_flatMap.mp inside
  exact each value member piece within

theorem sound_attributes (texts : List String) : Sound (attributePieces texts) :=
  sound_flatMap fun text _ => by simp

theorem sound_helper {helper : Helper}
    (plain : ∀ argument ∈ helper.arguments, Argument argument) : Sound (helperPieces helper) := by
  simp [helperPieces, valid_word helper.kind.isKeyword_keyword, valid_joined plain]

theorem sound_entries (values : ValueList) : Sound (entryPieces values) := by
  cases values with
  | flags entries =>
    refine sound_flatMap fun entry _ => ?_
    have mark : (Piece.word (if entry.initial then "1" else "0")).Valid :=
      valid_word (by cases entry.initial <;> decide)
    simp [flagPieces, mark, -Nat.toString_eq_repr, valid_word (isKeyword_toString _)]
  | choices entries =>
    refine sound_flatMap fun entry _ => ?_
    simp [choicePieces, sound_attributes]

theorem sound_keyValue (keyValue : KeyValue) : Sound (keyValuePieces keyValue) := by
  have mark : Sound (markPieces keyValue.readonly) := by
    cases keyValue.readonly with
    | false => exact sound_nil
    | true => exact sound_cons.mpr ⟨valid_word (by decide), sound_nil⟩
  have list : Sound (listPieces keyValue.values) := by
    cases keyValue.values with
    | none => exact sound_nil
    | some values => simp [listPieces, sound_entries]
  simp [keyValuePieces, valid_arguments (ValueType.isKeyword_keyword _), mark, list,
    sound_attributes]

theorem sound_signal (direction : Direction) (signal : Signal) :
    Sound (signalPieces direction signal) := by
  have word : (Piece.word (directionWord direction)).Valid :=
    valid_word (by cases direction <;> decide)
  simp [signalPieces, word, valid_arguments (ValueType.isKeyword_keyword _), sound_attributes]

theorem sound_block {entity : EntityClass} (expressible : Expressible entity) :
    Sound (headPieces entity ++ bodyPieces entity) := by
  have inherited : Sound (helperPieces ⟨.inherit, entity.names⟩) :=
    sound_helper fun name inside => (expressible.names.2 name inside).2.2
  have helpers : Sound (entity.helpers.flatMap helperPieces) :=
    sound_flatMap fun helper inside => sound_helper (expressible.helpers helper inside).2.2
  have keyValues : Sound (entity.keyValues.values.flatMap keyValuePieces) :=
    sound_flatMap fun keyValue _ => sound_keyValue keyValue
  have signals : ∀ direction (map : OrderedMap Signal),
      Sound (map.values.flatMap (signalPieces direction)) :=
    fun direction map => sound_flatMap fun signal _ => sound_signal direction signal
  simp [headPieces, bodyPieces, inherited, helpers, keyValues, signals, sound_attributes]

/-- A class that is written down is cut into the tokens of its grammar, whatever follows. -/
theorem cut_writtenBlock {entity : EntityClass} (expressible : Expressible entity)
    (more : List Char) :
    Cut (writtenBlock entity) ((row (headPieces entity ++ bodyPieces entity)).map Token.spelling)
      more := by
  have cut : Cut (writtenBlock entity) _ [] := cut_pieces (sound_block expressible) nofun
  have spelled : (row (headPieces entity ++ bodyPieces entity)).map Token.spelling =
      (headPieces entity ++ bodyPieces entity).map Piece.spelling := by
    rw [row, List.map_map]
    rfl
  have closed : ∃ front, headPieces entity ++ bodyPieces entity = front ++ [.closing] :=
    ⟨headPieces entity ++ .lineBreak :: (entity.keyValues.values.flatMap keyValuePieces ++
      (entity.inputs.values.flatMap (signalPieces .input) ++
        entity.outputs.values.flatMap (signalPieces .output))), by simp [bodyPieces]⟩
  obtain ⟨front, whole⟩ := closed
  rw [spelled]
  refine cut.move (fun spelling last => ?_) more
  rw [whole, List.map_append, List.map_singleton, List.getLast?_concat] at last
  cases last
  decide

/-- Every class that can be written is read back as it was, from wherever its text begins
and whatever follows it; reading stops right behind the closing bracket. -/
theorem readBlock_writtenBlock {entity : EntityClass} (expressible : Expressible entity)
    (more : List Char) (mark : Mark) (last : Span) :
    readBlock entity.category (Lexer.stream ⟨⟨writtenBlock entity ++ more, mark⟩, last⟩) =
      .ok entity (Lexer.stream ⟨⟨more, mark.after (writtenBlock entity)⟩,
        (mark.after (writtenBlock entity).dropLast).to (mark.after (writtenBlock entity))⟩) := by
  obtain ⟨tokens, alike, found⟩ := (cut_writtenBlock expressible more).stream mark
  rw [row_append] at alike
  obtain ⟨heading, body, rfl, same, alike⟩ := Alike.of_append alike
  have headed := (head_row expressible).respelled same
  have derived := (body_row expressible).respelled alike
  rw [Lexer.stream_eq, found, Lexer.stream_eq]
  refine readBlock_eq_ok_iff.mpr ⟨headOf entity, _, (accepts_readHead _ _ _ _).mpr
    ⟨heading, TokenStream.ahead_append _ _ _, headed⟩, ?_⟩
  have read := readBody_of_body (derived.mono fun _ => tolerated_of_endsLine)
    (rfl : (headOf entity).name = entity.name)
  rw [foldl_writtenMembers expressible.kept] at read
  exact read _

namespace Lamp

def flags : KeyValue :=
  ⟨"spawnflags", .flags, "Flags", "0", "", true, some (.flags [⟨⟨3⟩, "Starts \"on\"", true⟩])⟩

def style : KeyValue :=
  ⟨"Style: [1]", .choices, "", "\\n", "//", false, some (.choices [⟨"", "dim\n"⟩])⟩

def turnOn : Signal := ⟨"input", .void, "]"⟩

def onBroken : Signal := ⟨"OnBroken", .string, ""⟩

def lamp : EntityClass :=
  (((({ EntityClass.plain .point "lamp" with
    bases := [.named "light"]
    helpers := [⟨.size, ["-8 -8 -8", "8 8 8"]⟩]
    description := "A \"lamp\"." }.addKeyValue flags).addKeyValue style).addSignal .input
      turnOn).addSignal .output onBroken)

theorem keyValues {keyValue : KeyValue} (inside : keyValue ∈ lamp.keyValues.values) :
    keyValue = style ∨ keyValue = flags := by
  rcases OrderedMap.mem_values_insert inside with same | inside
  · exact Or.inl same
  · rcases OrderedMap.mem_values_insert inside with same | inside
    · exact Or.inr same
    · cases inside

theorem expressible : Expressible lamp where
  name := by decide
  bases := by
    intro base inside
    rw [List.mem_singleton.mp inside]
    exact ⟨"light", rfl, by decide, by decide, by decide⟩
  distinct := List.nodup_singleton _
  helpers := by
    intro helper inside
    rw [List.mem_singleton.mp inside]
    refine ⟨by decide, by decide, ?_⟩
    intro argument member
    simp only [List.mem_cons, List.not_mem_nil, or_false] at member
    rcases member with rfl | rfl <;> decide
  kept :=
    { keyValues := (OrderedMap.KeyedBy.empty.insert flags).insert style
      inputs := OrderedMap.KeyedBy.empty.insert turnOn
      outputs := OrderedMap.KeyedBy.empty.insert onBroken
      lists := by
        intro keyValue inside
        rcases keyValues inside with rfl | rfl
        · exact ⟨rfl, nofun⟩
        · exact ⟨rfl, by decide⟩ }
  words := by
    intro keyValue inside direction
    rcases keyValues inside with rfl | rfl <;> cases direction <;> decide
  signals := by
    refine List.forall_mem_append.mpr ⟨fun signal inside => ?_, fun signal inside => ?_⟩
    · rcases OrderedMap.mem_values_insert inside with rfl | inside
      · rfl
      · cases inside
    · rcases OrderedMap.mem_values_insert inside with rfl | inside
      · rfl
      · cases inside

end Lamp

theorem readBlock_writtenBlock_lamp : Expressible Lamp.lamp ∧
    readBlock .point (Lexer.stream ⟨⟨writtenBlock Lamp.lamp ++ ['@'], .start⟩, ⟨0, 0, 1, 1⟩⟩) =
      .ok Lamp.lamp (Lexer.stream ⟨⟨['@'], Mark.start.after (writtenBlock Lamp.lamp)⟩,
        (Mark.start.after (writtenBlock Lamp.lamp).dropLast).to
          (Mark.start.after (writtenBlock Lamp.lamp))⟩) :=
  ⟨Lamp.expressible, readBlock_writtenBlock Lamp.expressible _ _ _⟩

end EntitySchema.Grammar
