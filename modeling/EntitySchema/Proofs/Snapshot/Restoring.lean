import EntitySchema.Proofs.MessagePack.Storing
import EntitySchema.Proofs.OrderedMap
import EntitySchema.Proofs.Outcome
import EntitySchema.Proofs.Utf8
import EntitySchema.Snapshot.Reading

/-! Snapshots restore what they were made of. Each part of a database is written as a value
that is read back as that part, whatever part it is; the only condition is that its lengths
can be written. -/
namespace EntitySchema.Snapshot

open MessagePack

variable {α : Type} {depth : Nat}

theorem utf8_injective : Function.Injective utf8 := by
  intro a b same
  have decoded := congrArg textOfUtf8? same
  rwa [textOfUtf8?_utf8, textOfUtf8?_utf8, Option.some.injEq] at decoded

section Records

variable {names : List String} {name : String} {i : Nat} {values reads : List Value}

/-- The first of several distinct names is the only one. -/
theorem place?_textValue (distinct : names.Nodup) (found : names[i]? = some name) :
    place? names (textValue name) = some i := by
  obtain ⟨inside, rfl⟩ := List.getElem?_eq_some_iff.mp found
  refine congrArg some ((List.findIdx_eq inside).mpr ⟨by simp, fun j before => ?_⟩)
  simp only [beq_eq_false_iff_ne, ne_eq, utf8_injective.eq_iff]
  exact fun same => Nat.ne_of_lt before ((List.Nodup.getElem_inj_iff distinct).mp same)

theorem enterField_next {front : List Value} {rest : List (Option Value)} {read : Value}
    (distinct : names.Nodup) (found : names[front.length]? = some name) :
    enterField names (front.map some ++ none :: rest) (textValue name, read) =
      some ((front ++ [read]).map some ++ rest) := by
  rw [enterField, place?_textValue distinct found, Option.bind_eq_bind, Option.bind_some]
  simp

/-- Fields that are given in order, each once, are found in their places. -/
theorem fields?_recordValue (distinct : names.Nodup) (same : names.length = reads.length) :
    fields? names (recordValue (names.zip reads)) = some (reads.map some) := by
  suffices general : ∀ (done left : List String) (front back : List Value),
      names = done ++ left → done.length = front.length → left.length = back.length →
        ((left.zip back).map fun field => (textValue field.1, field.2)).foldlM (enterField names)
          (front.map some ++ left.map fun _ => none) = some ((front ++ back).map some) by
    exact general [] names [] reads rfl rfl same
  intro done left
  induction left generalizing done with
  | nil =>
    intro front back _ _ matched
    obtain rfl := List.length_eq_zero_iff.mp matched.symm
    simp
  | cons name left ih =>
    intro front back whole before matched
    cases back with
    | nil => cases matched
    | cons read back =>
      have found : names[front.length]? = some name := by
        rw [whole, ← before]
        simp
      have others := ih (done ++ [name]) (front ++ [read]) back (by simpa using whole)
        (by simpa using before) (by simpa using matched)
      rw [List.zip_cons_cons, List.map_cons, List.map_cons, List.foldlM_cons,
        enterField_next distinct found, Option.bind_eq_bind, Option.bind_some, others]
      simp

theorem counted_textValue {text : String} :
    (textValue text).Counted ↔ (utf8 text).length < UInt32.size :=
  ⟨fun | .string short => short, .string⟩

theorem counted_recordValue {fields : List (String × Value)} :
    (recordValue fields).Counted ↔ fields.length < UInt32.size ∧
      ∀ field ∈ fields, (textValue field.1).Counted ∧ field.2.Counted := by
  constructor
  · intro counted
    rw [recordValue] at counted
    cases counted with
    | map short keys values =>
      refine ⟨by simpa using short, fun field member => ?_⟩
      have entry := List.mem_map_of_mem (f := fun field => (textValue field.1, field.2)) member
      exact ⟨keys _ entry, values _ entry⟩
  · rintro ⟨short, each⟩
    refine .map (by simpa using short) ?_ ?_
    · exact List.forall_mem_map.mpr fun field member => (each field member).1
    · exact List.forall_mem_map.mpr fun field member => (each field member).2

theorem counted_listValue {write : α → Value} {items : List α} :
    (listValue write items).Counted ↔
      items.length < UInt32.size ∧ ∀ x ∈ items, (write x).Counted := by
  constructor
  · intro counted
    rw [listValue] at counted
    cases counted with
    | array short each => exact ⟨by simpa using short, List.forall_mem_map.mp each⟩
  · rintro ⟨short, each⟩
    exact .array (by simpa using short) (List.forall_mem_map.mpr each)

theorem counted_mapValue {write : α → Value} {map : OrderedMap α} :
    (mapValue write map).Counted ↔ map.toList.length < UInt32.size ∧
      ∀ entry ∈ map.toList, (textValue entry.1).Counted ∧ (write entry.2).Counted := by
  have record : mapValue write map =
      recordValue (map.toList.map fun entry => (entry.1, write entry.2)) := by
    rw [mapValue, recordValue, List.map_map]
    rfl
  rw [record, counted_recordValue, List.length_map, List.forall_mem_map]

theorem counted_of_zip (counted : (recordValue (names.zip values)).Counted)
    (same : names.length = values.length) : ∀ value ∈ values, value.Counted := by
  intro value member
  have row : (names.zip values).map Prod.snd = values := List.map_snd_zip (Nat.le_of_eq same.symm)
  rw [← row] at member
  obtain ⟨field, inside, rfl⟩ := List.mem_map.mp member
  exact ((counted_recordValue.mp counted).2 field inside).2

theorem stores_textValue {text : String} (counted : (textValue text).Counted) :
    Stores depth (textValue text) (textValue text) :=
  stores_string (counted_textValue.mp counted)

/-- A record is read as the record of what its fields are read as. -/
theorem stores_recordValue (counted : (recordValue (names.zip values)).Counted)
    (each : List.Forall₂ (Stores depth) values reads) :
    Stores (depth + 1) (recordValue (names.zip values)) (recordValue (names.zip reads)) := by
  obtain ⟨short, fields⟩ := counted_recordValue.mp counted
  refine stores_map (by simpa using short) ?_
  clear counted short
  induction names generalizing values reads with
  | nil => exact .nil
  | cons name names ih =>
    cases each with
    | nil => exact .nil
    | cons first others =>
      refine .cons ⟨stores_textValue (fields _ List.mem_cons_self).1, first⟩ (ih others ?_)
      exact fun field member => fields field (List.mem_cons_of_mem _ member)

/-- An alternative with content is a record of one field. -/
theorem taggedValue_eq (tag : String) (content : Value) :
    taggedValue tag content = recordValue ([tag].zip [content]) := rfl

theorem stores_taggedValue {tag : String} {content read : Value}
    (counted : (taggedValue tag content).Counted) (stored : Stores depth content read) :
    Stores (depth + 1) (taggedValue tag content) (taggedValue tag read) := by
  rw [taggedValue_eq] at counted ⊢
  exact stores_recordValue counted (.cons stored .nil)

theorem counted_of_taggedValue {tag : String} {content : Value}
    (counted : (taggedValue tag content).Counted) : content.Counted := by
  rw [taggedValue_eq] at counted
  exact counted_of_zip counted rfl content List.mem_cons_self

end Records

/-- A value is written in such a way that it is read back as what it was made of. -/
def Restores (depth : Nat) (item : Value → Option α) (value : Value) (result : α) : Prop :=
  ∃ read, Stores depth value read ∧ item read = some result

theorem restores_text {text : String} (counted : (textValue text).Counted) :
    Restores depth text? (textValue text) text :=
  ⟨_, stores_textValue counted, textOfUtf8?_utf8 text⟩

theorem restores_bool (flag : Bool) : Restores depth bool? (.bool flag) flag :=
  ⟨_, stores_bool flag, rfl⟩

theorem restores_natural (bound : Nat) {n : Nat} (below : n < bound) (fits : n < UInt64.size) :
    Restores depth (natural? bound) (.unsigned n) n := by
  refine ⟨_, stores_unsigned fits, ?_⟩
  simp [natural?, integer?, below]

theorem restores_int64 (n : Int64) : Restores depth int64? (.signed n.toInt) n := by
  have least := Int64.minValue_le_toInt n
  have greatest := Int64.toInt_le n
  have value : integer? (if n.toInt ≥ 0 then .unsigned n.toInt.toNat else .signed n.toInt) =
      some n.toInt := by
    split
    · rename_i positive
      exact congrArg some (Int.toNat_of_nonneg positive)
    · rfl
  refine ⟨_, stores_signed least (Int.lt_of_le_of_lt greatest (by decide)), ?_⟩
  rw [int64?, value, Option.bind_eq_bind, Option.bind_some, if_pos ⟨least, greatest⟩,
    Int64.ofInt_toInt]

theorem restores_list {write : α → Value} {item : Value → Option α} {items : List α}
    (counted : (listValue write items).Counted)
    (each : ∀ x ∈ items, (write x).Counted → Restores depth item (write x) x) :
    Restores (depth + 1) (list? item) (listValue write items) items := by
  obtain ⟨short, all⟩ := counted_listValue.mp counted
  obtain ⟨reads, rows⟩ := exists_forall₂ fun x member => each x member (all x member)
  refine ⟨.array reads, stores_array (by simpa using short) ?_, mapM_eq_some_iff.mpr ?_⟩
  · exact List.forall₂_map_left_iff.mpr (rows.imp fun _ _ row => row.1)
  · exact rows.flip.imp fun _ _ row => row.2

theorem pair?_textValue {item : Value → Option α} {read : Value} {row : String × α}
    (result : item read = some row.2) : pair? item (textValue row.1, read) = some row := by
  simp [pair?, text?, textBytes?, textValue, result]

theorem restores_map {write : α → Value} {item : Value → Option α} {map : OrderedMap α}
    (counted : (mapValue write map).Counted)
    (each : ∀ x ∈ map.values, (write x).Counted → Restores depth item (write x) x) :
    Restores (depth + 1) (map? item) (mapValue write map) map := by
  obtain ⟨short, all⟩ := counted_mapValue.mp counted
  have entries : ∀ row ∈ map.toList, ∃ read : Value × Value,
      (Stores depth (textValue row.1) read.1 ∧ Stores depth (write row.2) read.2) ∧
        pair? item read = some row := by
    intro row member
    obtain ⟨key, value⟩ := all row member
    obtain ⟨read, stored, result⟩ := each row.2 (OrderedMap.mem_values.mpr ⟨_, member⟩) value
    exact ⟨(textValue row.1, read), ⟨stores_textValue key, stored⟩, pair?_textValue result⟩
  obtain ⟨reads, rows⟩ := exists_forall₂ entries
  refine ⟨.map reads, stores_map (by simpa using short) ?_, ?_⟩
  · exact List.forall₂_map_left_iff.mpr (rows.imp fun _ _ row => row.1)
  · have results := mapM_eq_some_iff.mpr (rows.flip.imp fun _ _ row => row.2)
    rw [map?, results, Option.map_some, OrderedMap.ofList_toList]

theorem alternative?_textValue {tags : List String} {tag : String} {i : Nat}
    (distinct : tags.Nodup) (found : tags[i]? = some tag) :
    alternative? tags (textValue tag) = some i :=
  place?_textValue distinct found

theorem tagged?_taggedValue {tags : List String} {tag : String} {i : Nat} {content : Value}
    (distinct : tags.Nodup) (found : tags[i]? = some tag) :
    tagged? tags (taggedValue tag content) = some (i, content) := by
  simp only [tagged?, taggedValue, place?_textValue distinct found, Option.map_some]

/-- A tag stands for the alternative that is listed at the place of the tag. -/
theorem restores_tag {tags : List String} {tag : String} {all : List α} {i : Nat} {choice : α}
    (distinct : tags.Nodup) (found : tags[i]? = some tag) (known : all[i]? = some choice)
    (counted : (textValue tag).Counted) :
    Restores depth (fun value => (alternative? tags value).bind fun place => all[place]?)
      (textValue tag) choice := by
  refine ⟨_, stores_textValue counted, ?_⟩
  dsimp only
  rw [alternative?_textValue distinct found, Option.bind_some, known]

theorem restores_valueType {type : ValueType}
    (counted : (textValue (valueTypeTag type)).Counted) :
    Restores depth valueType? (textValue (valueTypeTag type)) type := by
  have found : valueTypeTags[type.index]? = some (valueTypeTag type) := by cases type <;> rfl
  exact restores_tag (by decide) found (ValueType.ofIndex?_index type) counted

theorem restores_category {category : Category}
    (counted : (textValue (categoryTag category)).Counted) :
    Restores depth category? (textValue (categoryTag category)) category := by
  have found : categoryTags[category.index]? = some (categoryTag category) := by
    cases category <;> rfl
  exact restores_tag (by decide) found (Category.ofIndex?_index category) counted

theorem restores_helperKind {kind : HelperKind}
    (counted : (textValue (helperKindTag kind)).Counted) :
    Restores depth helperKind? (textValue (helperKindTag kind)) kind := by
  have found : helperKindTags[kind.ctorIdx]? = some (helperKindTag kind) := by cases kind <;> rfl
  have known : HelperKind.all[kind.ctorIdx]? = some kind := by cases kind <;> rfl
  exact restores_tag (by decide) found known counted

theorem restores_flag {entry : FlagEntry} (counted : (flagValue entry).Counted) :
    Restores (depth + 1) flag? (flagValue entry) entry := by
  have fields := counted_of_zip counted rfl
  simp only [List.forall_mem_cons] at fields
  obtain ⟨-, label, -, -⟩ := fields
  have small := UInt8.toNat_lt entry.bit.power
  obtain ⟨bit, storedBit, bitRead⟩ := restores_natural UInt8.size small
    (Nat.lt_trans small (by decide))
  obtain ⟨label, storedLabel, labelRead⟩ := restores_text label
  obtain ⟨initial, storedInitial, initialRead⟩ := restores_bool entry.initial
  refine ⟨_, stores_recordValue counted
    (.cons storedBit (.cons storedLabel (.cons storedInitial .nil))), ?_⟩
  rw [flag?, fields?_recordValue (by decide) rfl]
  simp [bitRead, labelRead, initialRead]

theorem restores_choice {choice : Choice} (counted : (choiceValue choice).Counted) :
    Restores (depth + 1) choice? (choiceValue choice) choice := by
  have fields := counted_of_zip counted rfl
  simp only [List.forall_mem_cons] at fields
  obtain ⟨value, label, -⟩ := fields
  obtain ⟨value, storedValue, valueRead⟩ := restores_text value
  obtain ⟨label, storedLabel, labelRead⟩ := restores_text label
  refine ⟨_, stores_recordValue counted (.cons storedValue (.cons storedLabel .nil)), ?_⟩
  rw [choice?, fields?_recordValue (by decide) rfl]
  simp [valueRead, labelRead]

theorem restores_values {values : Option ValueList} (counted : (valuesValue values).Counted) :
    Restores (depth + 3) values? (valuesValue values) values := by
  match values with
  | none => exact ⟨_, stores_nil, rfl⟩
  | some (.flags entries) =>
    obtain ⟨content, stored, contentRead⟩ :
        Restores (depth + 2) (list? flag?) (listValue flagValue entries) entries :=
      restores_list (counted_of_taggedValue counted) fun _ _ => restores_flag
    refine ⟨_, stores_taggedValue counted stored, ?_⟩
    rw [values?]
    · rw [tagged?_taggedValue (i := 0) (by decide) rfl]
      simp [contentRead]
    · exact fun absurd => by cases absurd
  | some (.choices choices) =>
    obtain ⟨content, stored, contentRead⟩ :
        Restores (depth + 2) (list? choice?) (listValue choiceValue choices) choices :=
      restores_list (counted_of_taggedValue counted) fun _ _ => restores_choice
    refine ⟨_, stores_taggedValue counted stored, ?_⟩
    rw [values?]
    · rw [tagged?_taggedValue (i := 1) (by decide) rfl]
      simp [contentRead]
    · exact fun absurd => by cases absurd

theorem restores_keyValue {keyValue : KeyValue} (counted : (keyValueValue keyValue).Counted) :
    Restores (depth + 4) keyValue? (keyValueValue keyValue) keyValue := by
  have fields := counted_of_zip counted rfl
  simp only [List.forall_mem_cons] at fields
  obtain ⟨name, type, displayName, initial, description, -, values, -⟩ := fields
  obtain ⟨name, storedName, nameRead⟩ := restores_text name
  obtain ⟨type, storedType, typeRead⟩ := restores_valueType type
  obtain ⟨displayName, storedDisplayName, displayNameRead⟩ := restores_text displayName
  obtain ⟨initial, storedInitial, initialRead⟩ := restores_text initial
  obtain ⟨description, storedDescription, descriptionRead⟩ := restores_text description
  obtain ⟨readonly, storedReadonly, readonlyRead⟩ := restores_bool keyValue.readonly
  obtain ⟨values, storedValues, valuesRead⟩ := restores_values values
  refine ⟨_, stores_recordValue counted (.cons storedName (.cons storedType
    (.cons storedDisplayName (.cons storedInitial (.cons storedDescription
      (.cons storedReadonly (.cons storedValues .nil))))))), ?_⟩
  rw [keyValue?, fields?_recordValue (by decide) rfl]
  simp [nameRead, typeRead, displayNameRead, initialRead, descriptionRead, readonlyRead,
    valuesRead]

theorem restores_signal {signal : Signal} (counted : (signalValue signal).Counted) :
    Restores (depth + 1) signal? (signalValue signal) signal := by
  have fields := counted_of_zip counted rfl
  simp only [List.forall_mem_cons] at fields
  obtain ⟨name, type, description, -⟩ := fields
  obtain ⟨name, storedName, nameRead⟩ := restores_text name
  obtain ⟨type, storedType, typeRead⟩ := restores_valueType type
  obtain ⟨description, storedDescription, descriptionRead⟩ := restores_text description
  refine ⟨_, stores_recordValue counted
    (.cons storedName (.cons storedType (.cons storedDescription .nil))), ?_⟩
  rw [signal?, fields?_recordValue (by decide) rfl]
  simp [nameRead, typeRead, descriptionRead]

theorem restores_base {base : Base} (counted : (baseValue base).Counted) :
    Restores (depth + 1) base? (baseValue base) base := by
  cases base with
  | named name =>
    obtain ⟨content, stored, contentRead⟩ := restores_text (counted_of_taggedValue counted)
    refine ⟨_, stores_taggedValue counted stored, ?_⟩
    rw [base?, tagged?_taggedValue (i := 0) (by decide) rfl]
    simp [contentRead]
  | linked id =>
    have small := UInt32.toNat_lt id
    obtain ⟨content, stored, contentRead⟩ := restores_natural UInt32.size small
      (Nat.lt_trans small (by decide))
    refine ⟨_, stores_taggedValue counted stored, ?_⟩
    rw [base?, tagged?_taggedValue (i := 1) (by decide) rfl]
    simp [contentRead]

theorem restores_helper {helper : Helper} (counted : (helperValue helper).Counted) :
    Restores (depth + 2) helper? (helperValue helper) helper := by
  have fields := counted_of_zip counted rfl
  simp only [List.forall_mem_cons] at fields
  obtain ⟨kind, arguments, -⟩ := fields
  obtain ⟨kind, storedKind, kindRead⟩ := restores_helperKind kind
  obtain ⟨arguments, storedArguments, argumentsRead⟩ :=
    restores_list arguments fun _ _ => restores_text
  refine ⟨_, stores_recordValue counted (.cons storedKind (.cons storedArguments .nil)), ?_⟩
  rw [helper?, fields?_recordValue (by decide) rfl]
  simp [kindRead, argumentsRead]

theorem restores_class {entity : EntityClass} (counted : (classValue entity).Counted) :
    Restores (depth + 6) class? (classValue entity) entity := by
  have fields := counted_of_zip counted rfl
  simp only [List.forall_mem_cons] at fields
  obtain ⟨category, name, bases, keyValues, inputs, outputs, helpers, description, -⟩ := fields
  obtain ⟨category, storedCategory, categoryRead⟩ := restores_category category
  obtain ⟨name, storedName, nameRead⟩ := restores_text name
  obtain ⟨bases, storedBases, basesRead⟩ := restores_list bases fun _ _ => restores_base
  obtain ⟨keyValues, storedKeyValues, keyValuesRead⟩ :=
    restores_map keyValues fun _ _ => restores_keyValue
  obtain ⟨inputs, storedInputs, inputsRead⟩ := restores_map inputs fun _ _ => restores_signal
  obtain ⟨outputs, storedOutputs, outputsRead⟩ := restores_map outputs fun _ _ => restores_signal
  obtain ⟨helpers, storedHelpers, helpersRead⟩ := restores_list helpers fun _ _ => restores_helper
  obtain ⟨description, storedDescription, descriptionRead⟩ := restores_text description
  refine ⟨_, stores_recordValue counted (.cons storedCategory (.cons storedName
    (.cons storedBases (.cons storedKeyValues (.cons storedInputs (.cons storedOutputs
      (.cons storedHelpers (.cons storedDescription .nil)))))))), ?_⟩
  rw [class?, fields?_recordValue (by decide) rfl]
  simp [categoryRead, nameRead, basesRead, keyValuesRead, inputsRead, outputsRead, helpersRead,
    descriptionRead]

/-- Files that are new and distinct are recorded one behind the other. -/
theorem foldl_beginFile {files : List String} {db : Database}
    (distinct : (db.files ++ files).Nodup) :
    files.foldl Database.beginFile db = { db with files := db.files ++ files } := by
  induction files generalizing db with
  | nil => simp
  | cons file files ih =>
    have fresh : db.hasFile file = false := by
      rw [List.nodup_append] at distinct
      simp only [Database.hasFile, List.contains_eq_mem, decide_eq_false_iff_not]
      exact fun known => distinct.2.2 _ known _ List.mem_cons_self rfl
    rw [List.foldl_cons, Database.beginFile, fresh, if_neg Bool.false_ne_true, ih]
    · simp
    · simpa using distinct

theorem restores_database {db : Database} (counted : (databaseValue db).Counted)
    (distinct : db.files.Nodup) :
    Restores (depth + 8) database? (databaseValue db) db := by
  have fields := counted_of_zip counted rfl
  simp only [List.forall_mem_cons] at fields
  obtain ⟨classes, -, -, files, -⟩ := fields
  obtain ⟨classes, storedClasses, classesRead⟩ := restores_map classes fun _ _ => restores_class
  obtain ⟨low, storedLow, lowRead⟩ := restores_int64 db.mapMin
  obtain ⟨high, storedHigh, highRead⟩ := restores_int64 db.mapMax
  obtain ⟨files, storedFiles, filesRead⟩ := restores_list files fun _ _ => restores_text
  refine ⟨_, stores_recordValue counted (.cons storedClasses (.cons storedLow
    (.cons storedHigh (.cons storedFiles .nil)))), ?_⟩
  rw [database?, fields?_recordValue (by decide) rfl]
  simp [classesRead, lowRead, highRead, filesRead, foldl_beginFile, distinct]

end EntitySchema.Snapshot
