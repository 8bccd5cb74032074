import EntitySchema.Proofs.Compact.FixedPoint

/-! The limits of the compact format, and that they are the only ones. A database within them
is encoded, with every count, length and string number as it is; any other is refused, so
that nothing is ever cut down to the width it is stored in. -/
namespace EntitySchema

/-- The strings that are stored for a keyvalue. -/
def KeyValue.storedTexts (keyValue : KeyValue) : List String :=
  [keyValue.name, keyValue.displayName] ++
    match keyValue.type with
    | .flags => keyValue.flags.map (·.label)
    | .choices =>
      keyValue.initial :: keyValue.choices.flatMap fun choice => [choice.value, choice.label]
    | _ => [keyValue.initial]

/-- The strings that are stored for a class. -/
def Database.textsOfClass (db : Database) (entity : EntityClass) : List String :=
  [entity.name] ++ entity.bases.map db.baseName ++
    entity.keyValues.values.flatMap KeyValue.storedTexts ++
    (entity.inputs.values ++ entity.outputs.values).map (·.name)

/-- The strings that are stored for a database, each as often as it is used. -/
def Database.storedTexts (db : Database) : List String :=
  db.classes.values.flatMap db.textsOfClass

/-- A class that can be stored among as many classes as there are. -/
structure EntityClass.Fits (classes : Nat) (entity : EntityClass) : Prop where
  bases : entity.bases.length ≤ 255
  keyValues : entity.keyValues.size ≤ 255
  inputs : entity.inputs.size ≤ 255
  outputs : entity.outputs.size ≤ 255
  flags : ∀ keyValue ∈ entity.keyValues.values, keyValue.type = .flags →
    keyValue.flags.length ≤ 255
  choices : ∀ keyValue ∈ entity.keyValues.values, keyValue.type = .choices →
    keyValue.choices.length ≤ 65535
  signals : ∀ signal ∈ entity.inputs.values ++ entity.outputs.values, signal.type.hasList = false
  links : ∀ id, .linked id ∈ entity.bases → id.toNat < classes

/-- A database that can be stored. -/
structure Database.Fits (db : Database) : Prop where
  classes : ∀ entity ∈ db.classes.values, entity.Fits db.size
  size : db.size ≤ 2 ^ 32 - 1
  distinct : db.storedTexts.eraseDups.length ≤ 65536
  short : ∀ text ∈ db.storedTexts, (utf8 text).length ≤ 65535

namespace Compact

/-- One part of an encoding: a number in so many bytes, a string that is given by its number in
the table, or bytes of another kind. -/
inductive Item where
  | number (width value : Nat)
  | text (value : String)
  | raw (bytes : List UInt8)

namespace Item

def bytes (strings : List String) : Item → List UInt8
  | number width value => bigEndian width value
  | text value => bigEndian 2 (strings.idxOf value)
  | raw bytes => bytes

/-- The number that is meant fits into the bytes that are there for it. -/
def Exact (strings : List String) : Item → Prop
  | number width value => value < 256 ^ width
  | text value => value ∈ strings ∧ strings.idxOf value < 256 ^ 2
  | raw _ => True

def text? : Item → Option String
  | text value => some value
  | _ => none

end Item

def flagItems (entry : FlagEntry) : List Item :=
  [.number 1 (marked entry.bit.power.toNat entry.initial), .text entry.label]

def choiceItems (choice : Choice) : List Item := [.text choice.value, .text choice.label]

def keyValueItems (keyValue : KeyValue) : List Item :=
  [.text keyValue.name, .text keyValue.displayName,
    .number 1 (marked keyValue.type.index keyValue.readonly)] ++
    match keyValue.type with
    | .flags => .number 1 keyValue.flags.length :: keyValue.flags.flatMap flagItems
    | .choices => .text keyValue.initial :: .number 2 keyValue.choices.length ::
        keyValue.choices.flatMap choiceItems
    | _ => [.text keyValue.initial]

def signalItems (signal : Signal) : List Item := [.text signal.name, .number 1 signal.type.index]

def classItems (db : Database) (entity : EntityClass) : List Item :=
  [.number 1 entity.category.index, .number 1 entity.bases.length,
    .number 1 entity.keyValues.size, .number 1 entity.inputs.size,
    .number 1 entity.outputs.size, .text entity.name] ++
    entity.bases.map (fun base => .text (db.baseName base)) ++
    entity.keyValues.values.flatMap keyValueItems ++
    (entity.inputs.values ++ entity.outputs.values).flatMap signalItems

/-- Everything that is stored of a database, given the strings of its table. -/
def items (db : Database) (strings : List String) : List Item :=
  [.raw (magic ++ [version]), .raw (bigEndian 8 (Binary64.ofInt64 db.mapMin)),
    .raw (bigEndian 8 (Binary64.ofInt64 db.mapMax)), .number 4 db.size,
    .number 4 strings.length] ++
    strings.flatMap (fun text => [.number 2 (utf8 text).length, .raw (utf8 text)]) ++
    db.classes.values.flatMap (classItems db)

variable {db : Database} {dictionary after : Dictionary} {texts : List String} {bytes : List UInt8}

section Problems

theorem keyValueLayout_problem {classname : String} {keyValue : KeyValue} :
    (keyValueLayout classname keyValue).problem = none ↔
      (keyValue.type = .flags → keyValue.flags.length ≤ 255) ∧
        (keyValue.type = .choices → keyValue.choices.length ≤ 65535) := by
  have flags : ∀ flags : List FlagEntry, (Layout.concat (flags.map flagLayout)).problem = none :=
    fun flags => Layout.problem_concat.mpr (List.forall_mem_map.mpr fun _ _ => rfl)
  have choices : ∀ choices : List Choice,
      (Layout.concat (choices.map choiceLayout)).problem = none :=
    fun choices => Layout.problem_concat.mpr (List.forall_mem_map.mpr fun _ _ => rfl)
  have plain : ∀ fields, (Layout.ofFields fields).problem = none := fun _ => rfl
  have text : ∀ value, (Layout.text value).problem = none := fun _ => rfl
  rw [keyValueLayout]
  split
  · rename_i type
    simp [type, Layout.problem_append, Layout.count8_problem, flags, plain]
  · rename_i type
    simp [type, Layout.problem_append, Layout.count16_problem, choices, plain, text]
  · rename_i noFlags noChoices
    refine iff_of_true ?_ ⟨fun type => (noFlags type).elim, fun type => (noChoices type).elim⟩
    simp [Layout.problem_append, plain, text]

theorem signalLayout_problem {signal : Signal} :
    (signalLayout signal).problem = none ↔ signal.type.hasList = false := by
  rw [signalLayout]
  split
  · rename_i list
    simp [Layout.stop, list]
  · rename_i plain
    simpa [Layout.ofFields] using plain

theorem baseLayout_problem {classname : String} {base : Base} :
    (baseLayout db classname base).problem = none ↔
      ∀ id, base = .linked id → id.toNat < db.size := by
  cases base with
  | named name => exact iff_of_true rfl nofun
  | linked id =>
    have known : (db.classAt? id).isSome ↔ id.toNat < db.size := by
      simp [Database.classAt?, OrderedMap.entryAt?, Database.size, OrderedMap.size]
    rw [baseLayout]
    cases found : db.classAt? id with
    | some entity => simpa [found, Layout.text, Layout.ofFields] using known
    | none => simpa [found, Layout.stop] using known

theorem classLayout_problem {entity : EntityClass} :
    (classLayout db entity).problem = none ↔ entity.Fits db.size := by
  have plain : ∀ n, (Layout.byte n).problem = none := fun _ => rfl
  have text : ∀ value, (Layout.text value).problem = none := fun _ => rfl
  simp only [classLayout, Layout.problem_append, Layout.problem_concat, Layout.count8_problem,
    List.forall_mem_map, keyValueLayout_problem, signalLayout_problem, baseLayout_problem, plain,
    text, true_and, and_true]
  constructor
  · rintro ⟨⟨⟨⟨⟨⟨bases, keyValues⟩, inputs⟩, outputs⟩, links⟩, lists⟩, signals⟩
    exact ⟨bases, keyValues, inputs, outputs, fun keyValue member => (lists keyValue member).1,
      fun keyValue member => (lists keyValue member).2, signals,
      fun id inside => links _ inside id rfl⟩
  · rintro ⟨bases, keyValues, inputs, outputs, flags, choices, signals, links⟩
    exact ⟨⟨⟨⟨⟨⟨bases, keyValues⟩, inputs⟩, outputs⟩,
      fun base inside id same => links id (same ▸ inside)⟩,
      fun keyValue member => ⟨flags keyValue member, choices keyValue member⟩⟩, signals⟩

theorem layout_problem :
    (layout db).problem = none ↔ ∀ entity ∈ db.classes.values, entity.Fits db.size := by
  rw [layout, Layout.problem_concat, List.forall_mem_map]
  simp only [classLayout_problem]

end Problems

section Table

/-- The strings of the table are those that were entered, in order of first use. -/
theorem keys_enterAll {done : List String} (before : dictionary.strings.keys = done.eraseDups)
    (entered : Dictionary.enterAll texts dictionary = .ok () after) :
    after.strings.keys = (done ++ texts).eraseDups := by
  induction texts generalizing dictionary done with
  | nil =>
    cases entered
    rw [before, List.append_nil]
  | cons text texts ih =>
    have member : text ∈ dictionary.strings.keys ↔ text ∈ done := by
      rw [before, List.mem_eraseDups]
    rw [List.append_cons]
    simp only [Dictionary.enterAll] at entered
    rcases Dictionary.enter_cases dictionary text with
      ⟨i, found, same⟩ | ⟨fresh, -, same⟩ | ⟨-, -, same⟩
    · simp only [same] at entered
      have known := List.mem_of_getElem? (OrderedMap.position?_eq_some_iff.mp found)
      refine ih ?_ entered
      rw [before, eraseDups_concat_of_mem (member.mp known)]
    · simp only [same] at entered
      refine ih ?_ entered
      rw [OrderedMap.keys_insert, if_neg fresh, before,
        eraseDups_concat_of_not_mem (mt member.mpr fresh)]
    · simp only [same] at entered
      cases entered

theorem entryBytes_eq_ok_iff {text : String} {entry : List UInt8} :
    Dictionary.entryBytes text = .ok entry ↔ (utf8 text).length ≤ maxStringBytes ∧
      bigEndian 2 (utf8 text).length ++ utf8 text = entry := by
  simp only [Dictionary.entryBytes]
  split
  · rename_i short
    simp [short]
  · rename_i long
    simp [long]

/-- The table can be written if every string is short enough. -/
theorem serialize_eq_ok_iff {table : List UInt8} : dictionary.serialize = .ok table ↔
    (∀ text ∈ dictionary.strings.keys, (utf8 text).length ≤ maxStringBytes) ∧
      table = bigEndian 4 dictionary.size ++ dictionary.strings.keys.flatMap fun text =>
        bigEndian 2 (utf8 text).length ++ utf8 text := by
  simp only [Dictionary.serialize, bind_eq_ok_iff, mapM_eq_ok_iff, entryBytes_eq_ok_iff,
    List.forall₂_and_left]
  constructor
  · rintro ⟨entries, ⟨short, written⟩, same⟩
    cases same
    rw [← List.forall₂_map_left_iff, List.forall₂_eq_eq_eq] at written
    rw [← written, List.flatMap_def]
    exact ⟨short, rfl⟩
  · rintro ⟨short, rfl⟩
    refine ⟨_, ⟨short, List.forall₂_map_right_iff.mpr (List.forall₂_same.mpr fun _ _ => rfl)⟩, ?_⟩
    rw [List.flatMap_def]
    rfl

end Table

section Items

/-- A field that holds just what is meant by an item. -/
inductive Field.Holds : Field → Item → Prop where
  | byte (value : UInt8) : Holds (.byte value) (.number 1 value.toNat)
  | word (value : UInt16) : Holds (.word value) (.number 2 value.toNat)
  | text (value : String) : Holds (.text value) (.text value)

/-- The fields of a layout hold the items, unless it has met a problem. -/
def Holds (layout : Layout) (items : List Item) : Prop :=
  layout.problem = none → List.Forall₂ Field.Holds layout.fields items

namespace Holds

variable {front back : Layout} {first second : List Item}

theorem append (begun : Holds front first) (ended : Holds back second) :
    Holds (front ++ back) (first ++ second) := by
  intro clear
  obtain ⟨clearFront, clearBack⟩ := Layout.problem_append.mp clear
  rw [Layout.fields_append clearFront]
  exact List.rel_append (begun clearFront) (ended clearBack)

theorem concat {α : Type} {layoutOf : α → Layout} {itemsOf : α → List Item}
    (each : ∀ x, Holds (layoutOf x) (itemsOf x)) (row : List α) :
    Holds (.concat (row.map layoutOf)) (row.flatMap itemsOf) := by
  induction row with
  | nil => exact fun _ => .nil
  | cons x row ih =>
    rw [List.map_cons, Layout.concat_cons, List.flatMap_cons]
    exact (each x).append ih

theorem byte {n : Nat} (small : n < 256) : Holds (.byte n) [.number 1 n] := by
  intro _
  have exact : n.toUInt8.toNat = n := Nat.mod_eq_of_lt small
  have holds := Field.Holds.byte n.toUInt8
  rw [exact] at holds
  exact .cons holds .nil

theorem count8 (what : Counted) (count : Nat) (classname : String) :
    Holds (.count8 what count classname) [.number 1 count] := by
  intro clear
  have few := Layout.count8_problem.mp clear
  rw [Layout.count8, if_pos few]
  exact byte (Nat.lt_succ_of_le few) rfl

theorem count16 (what : Counted) (count : Nat) (classname : String) :
    Holds (.count16 what count classname) [.number 2 count] := by
  intro clear
  have few := Layout.count16_problem.mp clear
  have exact : count.toUInt16.toNat = count := Nat.mod_eq_of_lt (Nat.lt_succ_of_le few)
  have holds := Field.Holds.word count.toUInt16
  rw [exact] at holds
  rw [Layout.count16, if_pos few]
  exact .cons holds .nil

theorem text (value : String) : Holds (.text value) [.text value] :=
  fun _ => .cons (.text value) .nil

end Holds

theorem holds_flag (entry : FlagEntry) : Holds (flagLayout entry) (flagItems entry) :=
  (Holds.byte (marked_lt _ _)).append (.text entry.label)

theorem holds_choice (choice : Choice) : Holds (choiceLayout choice) (choiceItems choice) :=
  (Holds.text choice.value).append (.text choice.label)

theorem holds_keyValue (classname : String) (keyValue : KeyValue) :
    Holds (keyValueLayout classname keyValue) (keyValueItems keyValue) := by
  have head : Holds (.ofFields [.text keyValue.name, .text keyValue.displayName,
      .byte (marked keyValue.type.index keyValue.readonly).toUInt8])
      [.text keyValue.name, .text keyValue.displayName,
        .number 1 (marked keyValue.type.index keyValue.readonly)] :=
    (Holds.text keyValue.name).append
      ((Holds.text keyValue.displayName).append (Holds.byte (marked_lt _ _)))
  rcases keyValue.type.hasList_cases with type | type | plain
  · simp only [keyValueLayout, keyValueItems, type] at head ⊢
    exact (head.append (.count8 _ _ _)).append (.concat holds_flag _)
  · simp only [keyValueLayout, keyValueItems, type] at head ⊢
    exact ((head.append (.text _)).append (.count16 _ _ _)).append (.concat holds_choice _)
  · have items : keyValueItems keyValue = [.text keyValue.name, .text keyValue.displayName,
        .number 1 (marked keyValue.type.index keyValue.readonly)] ++ [.text keyValue.initial] := by
      rw [keyValueItems]
      split <;> simp_all [ValueType.hasList]
    rw [keyValueLayout_of_plain classname plain, items]
    exact head.append (.text keyValue.initial)

theorem holds_signal (signal : Signal) : Holds (signalLayout signal) (signalItems signal) := by
  intro clear
  have plain := signalLayout_problem.mp clear
  have small := signal.type.index_lt
  rw [signalLayout, if_neg (by simp [plain])]
  exact (Holds.text signal.name).append (Holds.byte (by omega)) rfl

theorem holds_base (db : Database) (classname : String) (base : Base) :
    Holds (baseLayout db classname base) [.text (db.baseName base)] := by
  cases base with
  | named name => exact .text name
  | linked id =>
    intro clear
    rw [baseLayout] at clear ⊢
    rw [Database.baseName]
    cases found : db.classAt? id with
    | none => simp [found, Layout.stop] at clear
    | some entity => exact .cons (.text entity.name) .nil

theorem holds_class (entity : EntityClass) :
    Holds (classLayout db entity) (classItems db entity) := by
  have category : entity.category.index < 256 := by
    cases entity.category <;> decide
  have bases := Holds.concat (holds_base db entity.name) entity.bases
  rw [← List.map_eq_flatMap] at bases
  exact ((((((((Holds.byte category).append (.count8 _ _ _)).append (.count8 _ _ _)).append
    (.count8 _ _ _)).append (.count8 _ _ _)).append (.text _)).append bases).append
      (.concat (holds_keyValue entity.name) _)).append (.concat holds_signal _)

theorem holds_layout (db : Database) :
    Holds (layout db) (db.classes.values.flatMap (classItems db)) :=
  .concat holds_class _

/-- Fields that hold items name the same strings. -/
theorem textsOf_eq_of_holds {fields : List Field} {items : List Item}
    (held : List.Forall₂ Field.Holds fields items) :
    textsOf fields = items.filterMap Item.text? := by
  induction held with
  | nil => rfl
  | cons first _ ih =>
    rw [List.filterMap_cons, ← ih]
    cases first <;> rfl

theorem texts_keyValueItems (keyValue : KeyValue) :
    (keyValueItems keyValue).filterMap Item.text? = keyValue.storedTexts := by
  rw [keyValueItems, KeyValue.storedTexts, List.filterMap_append]
  refine congrArg ([keyValue.name, keyValue.displayName] ++ ·) ?_
  split
  · rw [List.filterMap_cons, List.filterMap_flatMap, List.map_eq_flatMap]
    rfl
  · rw [List.filterMap_cons, List.filterMap_cons, List.filterMap_flatMap]
    rfl
  · rfl

theorem texts_classItems (db : Database) (entity : EntityClass) :
    (classItems db entity).filterMap Item.text? = db.textsOfClass entity := by
  have bases : (entity.bases.map fun base => Item.text (db.baseName base)).filterMap Item.text? =
      entity.bases.map db.baseName := by
    rw [List.filterMap_map]
    exact congrFun List.filterMap_eq_map' _
  have signals : ∀ signals : List Signal,
      (signals.flatMap signalItems).filterMap Item.text? = signals.map (·.name) := by
    intro signals
    rw [List.filterMap_flatMap, List.map_eq_flatMap]
    rfl
  rw [classItems, Database.textsOfClass, List.filterMap_append, List.filterMap_append,
    List.filterMap_append, bases, signals, List.filterMap_flatMap]
  simp only [texts_keyValueItems]
  rfl

theorem textsOf_layout (clear : (layout db).problem = none) :
    textsOf (layout db).fields = db.storedTexts := by
  rw [textsOf_eq_of_holds (holds_layout db clear), List.filterMap_flatMap, Database.storedTexts]
  simp only [texts_classItems]

/-- A string of the table is given by its place there. -/
theorem fieldBytes_text {text : String} (small : dictionary.size ≤ maxStrings)
    (inside : text ∈ dictionary.strings.keys) :
    fieldBytes dictionary (.text text) = bigEndian 2 (dictionary.strings.keys.idxOf text) ∧
      dictionary.strings.keys.idxOf text < 256 ^ 2 := by
  have place := List.idxOf_lt_length_of_mem inside
  rw [OrderedMap.length_keys] at place
  have below : dictionary.strings.keys.idxOf text < 65536 := Nat.lt_of_lt_of_le place small
  have exact : (dictionary.strings.keys.idxOf text).toUInt16.toNat =
      dictionary.strings.keys.idxOf text := Nat.mod_eq_of_lt below
  have number : dictionary.idOf? text =
      some (dictionary.strings.keys.idxOf text).toUInt16 := by
    rw [Dictionary.idOf?, OrderedMap.position?_eq_some_iff.mpr (List.getElem?_idxOf inside)]
    rfl
  rw [fieldBytes, number, Option.getD_some, exact]
  exact ⟨rfl, below⟩

/-- An item that a field holds is written as it is meant. -/
theorem Field.Holds.written {field : Field} {item : Item} (holds : Field.Holds field item)
    (small : dictionary.size ≤ maxStrings)
    (known : ∀ text ∈ textsOf [field], text ∈ dictionary.strings.keys) :
    fieldBytes dictionary field = item.bytes dictionary.strings.keys ∧
      item.Exact dictionary.strings.keys := by
  cases holds with
  | byte value => exact ⟨by simp [fieldBytes, Item.bytes, bigEndian], value.toNat_lt⟩
  | word value => exact ⟨rfl, value.toNat_lt⟩
  | text value =>
    have inside := known value List.mem_cons_self
    obtain ⟨written, below⟩ := fieldBytes_text small inside
    exact ⟨written, inside, below⟩

theorem bytes_of_holds {fields : List Field} {items : List Item}
    (held : List.Forall₂ Field.Holds fields items) (small : dictionary.size ≤ maxStrings)
    (known : ∀ text ∈ textsOf fields, text ∈ dictionary.strings.keys) :
    fields.flatMap (fieldBytes dictionary) = items.flatMap (Item.bytes dictionary.strings.keys) ∧
      ∀ item ∈ items, item.Exact dictionary.strings.keys := by
  induction held with
  | nil => exact ⟨rfl, nofun⟩
  | @cons field item fields items first _ ih =>
    rw [← List.singleton_append, textsOf_append, List.forall_mem_append] at known
    obtain ⟨bytes, exact⟩ := first.written small known.1
    obtain ⟨others, all⟩ := ih known.2
    rw [List.flatMap_cons, List.flatMap_cons, bytes, others]
    exact ⟨rfl, List.forall_mem_cons.mpr ⟨exact, all⟩⟩

end Items

/-- What stands in front of the classes: the map bounds, the number of classes, and the table. -/
theorem bytes_of_front (strings : List String) :
    headerBytes db ++ (bigEndian 4 strings.length ++
        strings.flatMap fun text => bigEndian 2 (utf8 text).length ++ utf8 text) ++
        (db.classes.values.flatMap (classItems db)).flatMap (Item.bytes strings) =
      (items db strings).flatMap (Item.bytes strings) := by
  have table : (strings.flatMap fun text => [Item.number 2 (utf8 text).length,
      .raw (utf8 text)]).flatMap (Item.bytes strings) =
        strings.flatMap fun text => bigEndian 2 (utf8 text).length ++ utf8 text := by
    rw [List.flatMap_assoc]
    simp [Item.bytes]
  rw [items, List.flatMap_append, List.flatMap_append, table]
  simp [headerBytes, Item.bytes]

theorem exact_of_fits {strings : List String} (few : db.size ≤ 2 ^ 32 - 1)
    (distinct : strings.length ≤ 65536) (short : ∀ text ∈ strings, (utf8 text).length ≤ 65535)
    (body : ∀ item ∈ db.classes.values.flatMap (classItems db), item.Exact strings) :
    ∀ item ∈ items db strings, item.Exact strings := by
  have table : ∀ item ∈ strings.flatMap fun text => [Item.number 2 (utf8 text).length,
      .raw (utf8 text)], item.Exact strings := by
    intro item member
    obtain ⟨text, inside, here⟩ := List.mem_flatMap.mp member
    rcases List.mem_pair.mp here with rfl | rfl
    · exact Nat.lt_succ_of_le (short text inside)
    · exact True.intro
  have classes : db.size < 256 ^ 4 := by omega
  have count : strings.length < 256 ^ 4 := by omega
  rw [items, List.forall_mem_append, List.forall_mem_append]
  refine ⟨⟨?_, table⟩, body⟩
  simpa [Item.Exact] using And.intro classes count

/-- What is known when a database has been encoded. -/
theorem fits_of_encode (encoded : encode db = .ok bytes) :
    db.Fits ∧ bytes = (items db db.storedTexts.eraseDups).flatMap
        (Item.bytes db.storedTexts.eraseDups) ∧
      ∀ item ∈ items db db.storedTexts.eraseDups, item.Exact db.storedTexts.eraseDups := by
  obtain ⟨dictionary, table, entered, clear, few, written, rfl⟩ := encode_eq_ok_iff.mp encoded
  rw [textsOf_layout clear] at entered
  obtain ⟨all, small⟩ := Dictionary.enterAll_ok entered (by decide)
  have none : Dictionary.empty.strings.keys = [].eraseDups := rfl
  have keys : dictionary.strings.keys = db.storedTexts.eraseDups := keys_enterAll none entered
  have size : dictionary.size = db.storedTexts.eraseDups.length := by
    rw [← keys, OrderedMap.length_keys]
    rfl
  obtain ⟨short, rfl⟩ := serialize_eq_ok_iff.mp written
  obtain ⟨body, exact⟩ := bytes_of_holds (holds_layout db clear) small fun text used => by
    rw [textsOf_layout clear] at used
    exact (all text).mpr (.inl used)
  rw [keys] at body exact short
  rw [size] at small
  have fits : db.Fits := {
    classes := layout_problem.mp clear
    size := Nat.le_pred_of_lt few
    distinct := small
    short := fun text used => short text (List.mem_eraseDups.mpr used) }
  refine ⟨fits, ?_, exact_of_fits fits.size small short exact⟩
  rw [body, keys, size, bytes_of_front]

/-- A database is encoded if and only if it fits the format, and nothing in an encoding is cut
down to the bytes that are there for it. -/
theorem encode_iff_fits (db : Database) :
    ((∃ bytes, encode db = .ok bytes) ↔ db.Fits) ∧
      ∀ bytes, encode db = .ok bytes →
        bytes = (items db db.storedTexts.eraseDups).flatMap
            (Item.bytes db.storedTexts.eraseDups) ∧
          ∀ item ∈ items db db.storedTexts.eraseDups, item.Exact db.storedTexts.eraseDups := by
  refine ⟨⟨fun ⟨bytes, encoded⟩ => (fits_of_encode encoded).1, fun fits => ?_⟩,
    fun bytes encoded => (fits_of_encode encoded).2⟩
  have clear := layout_problem.mpr fits.classes
  refine encode_total fits.distinct (fun text used => ?_) ?_ ⟨clear, fun text used => ?_⟩
  · exact fits.short text (List.mem_eraseDups.mp used)
  · exact Nat.lt_succ_of_le fits.size
  · rw [textsOf_layout clear] at used
    exact List.mem_eraseDups.mpr used

theorem encode_iff_fits_lights : encode Lights.database = .ok Lights.encoding ∧
    Lights.database.Fits ∧ Lights.encoding =
      (items Lights.database Lights.database.storedTexts.eraseDups).flatMap
        (Item.bytes Lights.database.storedTexts.eraseDups) := by
  obtain ⟨within, exact⟩ := encode_iff_fits Lights.database
  exact ⟨Lights.encode_database, within.mp ⟨_, Lights.encode_database⟩,
    (exact _ Lights.encode_database).1⟩

end Compact
end EntitySchema
