import EntitySchema.Proofs.Loading.Databases
import EntitySchema.Proofs.Snapshot.RoundTrip

/-! What is wrong in a snapshot is wrong in its database: names, value lists, flags and links
are taken over as they are. A check of what is stored, which reading does not make, tells
whether the database will be in order. -/
namespace EntitySchema

/-- Everything is stored under its folded name, value lists and flags fit their types, and
links lead to classes. -/
structure Database.Orderly (db : Database) : Prop where
  keyed : db.classes.KeyedBy EntityClass.name
  wellKept : ∀ entity ∈ db.classes.values, entity.WellKept
  inRange : ∀ entity ∈ db.classes.values, ∀ id ∈ entity.links, id.toNat < db.size

theorem Database.classes_foldl_beginFile (db : Database) (files : List String) :
    (files.foldl Database.beginFile db).classes = db.classes := by
  induction files generalizing db with
  | nil => rfl
  | cons file files ih =>
    rw [List.foldl_cons, ih, beginFile]
    split <;> rfl

theorem Database.WellFormed.orderly {db : Database} (wellFormed : db.WellFormed) : db.Orderly :=
  ⟨wellFormed.keyed, fun entity member => (wellFormed.classes entity member).kept,
    wellFormed.inRange⟩

namespace Snapshot

open MessagePack

def itemsOf : Value → List Value
  | .array items => items
  | _ => []

/-- The entries of a map that count: of those with the same key, the last one. -/
def entriesOf : Value → List (Value × Value)
  | .map entries => entries.pwFilter fun a b => text? a.1 ≠ text? b.1
  | _ => []

/-- What a record has in one of its fields, which is nothing if the field is missing. -/
def fieldOf (names : List String) (name : String) (value : Value) : Value :=
  (do (← fields? names value)[names.idxOf name]?).join.getD .nil

def checkFlag (flag : Value) : Bool :=
  (integer? (fieldOf flagFields "bit" flag)).any (· ≤ 127)

/-- A list is there if the type has one, and is of the shape the type requires. -/
def checkValues (type : ValueType) : Value → Bool
  | .nil => !type.hasList
  | values =>
    match tagged? valueListTags values with
    | some (0, content) => type == .flags && (itemsOf content).all checkFlag
    | _ => type == .choices

def checkKeyValue (keyValue : Value) : Bool :=
  (valueType? (fieldOf keyValueFields "value_type" keyValue)).any fun type =>
    checkValues type (fieldOf keyValueFields "values" keyValue)

/-- The key of an entry is the folded name of what it holds. -/
def checkKey (names : List String) (name : String) (entry : Value × Value) : Bool :=
  text? entry.1 == (text? (fieldOf names name entry.2)).map fold

def checkBase (classes : Nat) (base : Value) : Bool :=
  match tagged? baseTags base with
  | some (1, content) => (integer? content).any fun n : Int => n < classes
  | _ => true

def checkClass (classes : Nat) (entity : Value) : Bool :=
  (itemsOf (fieldOf classFields "bases" entity)).all (checkBase classes) &&
  (entriesOf (fieldOf classFields "keyvalues" entity)).all (fun entry =>
    checkKey keyValueFields "name" entry && checkKeyValue entry.2) &&
  (entriesOf (fieldOf classFields "inputs" entity)).all (checkKey signalFields "name") &&
  (entriesOf (fieldOf classFields "outputs" entity)).all (checkKey signalFields "name")

def checkDatabase (db : Value) : Bool :=
  let classes := entriesOf (fieldOf databaseFields "entities" db)
  classes.all fun entry =>
    checkKey classFields "classname" entry && checkClass classes.length entry.2

/-- Whether the database that a snapshot holds is in order. -/
def check (bytes : List UInt8) : Bool :=
  (readValue maxDepth bytes).any fun read => checkDatabase read.1

section Rows

variable {α : Type} {item : Value → Option α} {value : Value} {P : α → Prop} {R : String × α → Prop}

theorem all_itemsOf {items : List α} (read : list? item value = some items)
    {test : Value → Bool} (each : ∀ x result, item x = some result → (test x = true ↔ P result)) :
    (itemsOf value).all test = true ↔ ∀ result ∈ items, P result := by
  cases value with
  | array values =>
    rw [itemsOf, List.all_eq_true]
    exact forall_mem_iff_of_forall₂ (mapM_eq_some_iff.mp read) each
  | binary bytes =>
    cases bytes with
    | nil =>
      cases read
      simp [itemsOf]
    | cons => cases read
  | _ => cases read

theorem text?_of_pair? {entry : Value × Value} {row : String × α}
    (read : pair? item entry = some row) :
    text? entry.1 = some row.1 ∧ item entry.2 = some row.2 := by
  simp only [pair?, Option.bind_eq_bind, Option.bind_eq_some_iff, Option.pure_def,
    Option.some.injEq] at read
  obtain ⟨key, keyRead, content, contentRead, rfl⟩ := read
  exact ⟨keyRead, contentRead⟩

/-- Rows that have been read keep their order when those that do not count are left out. -/
theorem forall₂_pwFilter {entries : List (Value × Value)} {rows : List (String × α)}
    (read : List.Forall₂ (fun entry row => pair? item entry = some row) entries rows) :
    List.Forall₂ (fun entry row => pair? item entry = some row)
      (entries.pwFilter fun a b => text? a.1 ≠ text? b.1)
      (rows.pwFilter fun a b => a.1 ≠ b.1) := by
  induction read with
  | nil => exact .nil
  | @cons entry row entries rows first _ ih =>
    have same : (∀ other ∈ entries.pwFilter (fun a b => text? a.1 ≠ text? b.1),
        text? entry.1 ≠ text? other.1) ↔
          ∀ other ∈ rows.pwFilter (fun a b => a.1 ≠ b.1), row.1 ≠ other.1 := by
      refine forall_mem_iff_of_forall₂ ih fun other result later => ?_
      rw [(text?_of_pair? first).1, (text?_of_pair? later).1, Option.some_inj.ne]
    by_cases last : ∀ other ∈ rows.pwFilter (fun a b => a.1 ≠ b.1), row.1 ≠ other.1
    · rw [List.pwFilter_cons_of_pos (same.mpr last), List.pwFilter_cons_of_pos last]
      exact .cons first ih
    · rw [List.pwFilter_cons_of_neg (mt same.mp last), List.pwFilter_cons_of_neg last]
      exact ih

/-- A map holds just the entries that count, in some order. -/
theorem exists_rows {map : OrderedMap α} (read : map? item value = some map) :
    ∃ rows, map.toList.Perm rows ∧
      List.Forall₂ (fun entry row => pair? item entry = some row) (entriesOf value) rows := by
  cases value with
  | map entries =>
    obtain ⟨rows, taken, rfl⟩ := Option.map_eq_some_iff.mp read
    exact ⟨_, OrderedMap.toList_ofList_perm rows, forall₂_pwFilter (mapM_eq_some_iff.mp taken)⟩
  | _ => cases read

theorem length_entriesOf {map : OrderedMap α} (read : map? item value = some map) :
    (entriesOf value).length = map.size := by
  obtain ⟨rows, same, taken⟩ := exists_rows read
  rw [taken.length_eq, ← same.length_eq, OrderedMap.length_toList]

theorem all_entriesOf {map : OrderedMap α} (read : map? item value = some map)
    {test : Value × Value → Bool}
    (each : ∀ entry row, pair? item entry = some row → (test entry = true ↔ R row)) :
    (entriesOf value).all test = true ↔ ∀ row ∈ map.toList, R row := by
  obtain ⟨rows, same, taken⟩ := exists_rows read
  rw [List.all_eq_true, forall_mem_iff_of_forall₂ taken each]
  exact forall_congr' fun row => by rw [same.mem_iff]

end Rows

theorem fieldOf_eq {names : List String} {name : String} {value : Value}
    {fields : List (Option Value)} (read : fields? names value = some fields) :
    fieldOf names name value = (fields[names.idxOf name]?).join.getD .nil := by
  simp [fieldOf, read]

theorem integer?_of_natural? {bound n : Nat} {value : Value}
    (read : natural? bound value = some n) : integer? value = some (n : Int) ∧ n < bound := by
  simp only [natural?, Option.bind_eq_bind, Option.bind_eq_some_iff] at read
  obtain ⟨m, number, read⟩ := read
  split at read
  · rename_i within
    cases read
    rw [Int.toNat_of_nonneg within.1]
    exact ⟨number, by omega⟩
  · cases read

theorem checkFlag_iff {value : Value} {entry : FlagEntry} (read : flag? value = some entry) :
    checkFlag value = true ↔ entry.bit.power ≤ 127 := by
  simp only [flag?, Option.bind_eq_bind, Option.bind_eq_some_iff] at read
  obtain ⟨fields, found, read⟩ := read
  split at read
  · rename_i bit label initial
    simp only [Option.bind_eq_some_iff, Option.pure_def, Option.some.injEq] at read
    obtain ⟨n, bitRead, _, -, _, -, rfl⟩ := read
    obtain ⟨number, small⟩ := integer?_of_natural? bitRead
    have field : fieldOf flagFields "bit" value = bit := fieldOf_eq found
    have exact : n.toUInt8.toNat = n := Nat.mod_eq_of_lt small
    simp [checkFlag, field, number, UInt8.le_iff_toNat_le, exact]
  · cases read

theorem checkValues_iff {value : Value} {values : Option ValueList} {type : ValueType}
    (read : values? value = some values) :
    checkValues type value = true ↔ ValueList.Fits type values ∧
      ∀ entries, values = some (.flags entries) → ∀ entry ∈ entries, entry.bit.power ≤ 127 := by
  unfold values? at read
  split at read
  · cases read
    simp [checkValues, ValueList.Fits]
  · rename_i present
    rw [checkValues]
    · split at read
      · rename_i content found
        obtain ⟨entries, listRead, rfl⟩ := Option.map_eq_some_iff.mp read
        simp [found, ValueList.Fits, all_itemsOf listRead fun _ _ => checkFlag_iff]
      · rename_i content found
        obtain ⟨choices, listRead, rfl⟩ := Option.map_eq_some_iff.mp read
        simp [found, ValueList.Fits]
      · cases read
    · exact present

theorem fields_of_keyValue? {value : Value} {keyValue : KeyValue}
    (read : keyValue? value = some keyValue) :
    text? (fieldOf keyValueFields "name" value) = some keyValue.name ∧
      valueType? (fieldOf keyValueFields "value_type" value) = some keyValue.type ∧
      values? (fieldOf keyValueFields "values" value) = some keyValue.values := by
  simp only [keyValue?, Option.bind_eq_bind, Option.bind_eq_some_iff] at read
  obtain ⟨fields, found, read⟩ := read
  split at read
  · simp only [Option.bind_eq_some_iff, Option.pure_def, Option.some.injEq] at read
    obtain ⟨_, name, _, type, _, -, _, -, _, -, _, -, _, values, rfl⟩ := read
    rw [fieldOf_eq found, fieldOf_eq found, fieldOf_eq found]
    exact ⟨name, type, values⟩
  · cases read

theorem name_of_signal? {value : Value} {signal : Signal} (read : signal? value = some signal) :
    text? (fieldOf signalFields "name" value) = some signal.name := by
  simp only [signal?, Option.bind_eq_bind, Option.bind_eq_some_iff] at read
  obtain ⟨fields, found, read⟩ := read
  split at read
  · simp only [Option.bind_eq_some_iff, Option.pure_def, Option.some.injEq] at read
    obtain ⟨_, name, _, -, _, -, rfl⟩ := read
    rw [fieldOf_eq found]
    exact name
  · cases read

theorem fields_of_class? {value : Value} {entity : EntityClass}
    (read : class? value = some entity) :
    text? (fieldOf classFields "classname" value) = some entity.name ∧
      list? base? (fieldOf classFields "bases" value) = some entity.bases ∧
      map? keyValue? (fieldOf classFields "keyvalues" value) = some entity.keyValues ∧
      map? signal? (fieldOf classFields "inputs" value) = some entity.inputs ∧
      map? signal? (fieldOf classFields "outputs" value) = some entity.outputs := by
  simp only [class?, Option.bind_eq_bind, Option.bind_eq_some_iff] at read
  obtain ⟨fields, found, read⟩ := read
  split at read
  · simp only [Option.bind_eq_some_iff, Option.pure_def, Option.some.injEq] at read
    obtain ⟨_, -, _, name, _, bases, _, keyValues, _, inputs, _, outputs, _, -, _, -, rfl⟩ := read
    simp only [fieldOf_eq found]
    exact ⟨name, bases, keyValues, inputs, outputs⟩
  · cases read

theorem classes_of_database? {value : Value} {db : Database} (read : database? value = some db) :
    map? class? (fieldOf databaseFields "entities" value) = some db.classes := by
  simp only [database?, Option.bind_eq_bind, Option.bind_eq_some_iff] at read
  obtain ⟨fields, found, read⟩ := read
  split at read
  · simp only [Option.bind_eq_some_iff, Option.pure_def, Option.some.injEq] at read
    obtain ⟨classes, taken, _, -, _, -, files, -, rfl⟩ := read
    rw [fieldOf_eq found, Database.classes_foldl_beginFile]
    exact taken
  · cases read

theorem checkKeyValue_iff {value : Value} {keyValue : KeyValue}
    (read : keyValue? value = some keyValue) :
    checkKeyValue value = true ↔ keyValue.WellFormed := by
  obtain ⟨-, type, values⟩ := fields_of_keyValue? read
  rw [checkKeyValue, type, Option.any_some, checkValues_iff values]
  constructor
  · rintro ⟨fits, powers⟩
    refine ⟨fits, fun entry inside => ?_⟩
    rw [KeyValue.flags] at inside
    split at inside
    · rename_i entries same
      exact powers entries same entry inside
    · cases inside
  · rintro ⟨fits, powers⟩
    refine ⟨fits, fun entries same entry inside => powers entry ?_⟩
    rw [KeyValue.flags, same]
    exact inside

theorem checkKey_iff {names : List String} {field key name : String} {entry : Value × Value}
    (keyRead : text? entry.1 = some key)
    (nameRead : text? (fieldOf names field entry.2) = some name) :
    checkKey names field entry = true ↔ key = fold name := by
  rw [checkKey, keyRead, nameRead, Option.map_some, beq_iff_eq, Option.some_inj]

theorem all_checkKey_iff {value : Value} {signals : OrderedMap Signal}
    (read : map? signal? value = some signals) :
    (entriesOf value).all (checkKey signalFields "name") = true ↔ signals.KeyedBy Signal.name := by
  refine all_entriesOf read fun entry row taken => ?_
  obtain ⟨key, signal⟩ := text?_of_pair? taken
  exact checkKey_iff key (name_of_signal? signal)

theorem checkBase_iff {classes : Nat} {value : Value} {base : Base}
    (read : base? value = some base) :
    checkBase classes value = true ↔ ∀ id, base = .linked id → id.toNat < classes := by
  rw [base?] at read
  rw [checkBase]
  split at read
  · rename_i content found
    obtain ⟨name, -, rfl⟩ := Option.map_eq_some_iff.mp read
    simp [found]
  · rename_i content found
    obtain ⟨n, taken, rfl⟩ := Option.map_eq_some_iff.mp read
    obtain ⟨number, small⟩ := integer?_of_natural? taken
    have exact : n.toUInt32.toNat = n := Nat.mod_eq_of_lt small
    simp [found, number, exact]
  · cases read

/-- What is said of all entries of a map under their keys, and of their values. -/
theorem forall_mem_toList_iff {α : Type} {map : OrderedMap α} {name : α → String} {P : α → Prop} :
    (∀ row ∈ map.toList, row.1 = fold (name row.2) ∧ P row.2) ↔
      map.KeyedBy name ∧ ∀ value ∈ map.values, P value := by
  rw [forall₂_and, OrderedMap.KeyedBy, OrderedMap.values, List.forall_mem_map]

theorem checkClass_iff {classes : Nat} {value : Value} {entity : EntityClass}
    (read : class? value = some entity) :
    checkClass classes value = true ↔
      entity.WellKept ∧ ∀ id ∈ entity.links, id.toNat < classes := by
  obtain ⟨-, bases, keyValues, inputs, outputs⟩ := fields_of_class? read
  have linked : (∀ base ∈ entity.bases, ∀ id, base = .linked id → id.toNat < classes) ↔
      ∀ id ∈ entity.links, id.toNat < classes := by
    simp only [EntityClass.mem_links]
    exact ⟨fun each id inside => each _ inside id rfl, fun each _ inside id same =>
      each id (same ▸ inside)⟩
  have members : (entriesOf (fieldOf classFields "keyvalues" value)).all (fun entry =>
      checkKey keyValueFields "name" entry && checkKeyValue entry.2) = true ↔
        entity.keyValues.KeyedBy KeyValue.name ∧
          ∀ keyValue ∈ entity.keyValues.values, keyValue.WellFormed := by
    rw [← forall_mem_toList_iff]
    refine all_entriesOf keyValues fun entry row taken => ?_
    obtain ⟨key, keyValue⟩ := text?_of_pair? taken
    rw [Bool.and_eq_true, checkKeyValue_iff keyValue,
      checkKey_iff key (fields_of_keyValue? keyValue).1]
  simp only [checkClass, Bool.and_eq_true, all_itemsOf bases fun _ _ => checkBase_iff, linked,
    members, all_checkKey_iff inputs, all_checkKey_iff outputs]
  constructor
  · rintro ⟨⟨⟨inRange, keyed, lists⟩, inputs⟩, outputs⟩
    exact ⟨⟨keyed, inputs, outputs, lists⟩, inRange⟩
  · rintro ⟨⟨keyed, inputs, outputs, lists⟩, inRange⟩
    exact ⟨⟨⟨inRange, keyed, lists⟩, inputs⟩, outputs⟩

theorem checkDatabase_iff {value : Value} {db : Database} (read : database? value = some db) :
    checkDatabase value = true ↔ db.Orderly := by
  have classes := classes_of_database? read
  have all : checkDatabase value = true ↔ db.classes.KeyedBy EntityClass.name ∧
      ∀ entity ∈ db.classes.values,
        entity.WellKept ∧ ∀ id ∈ entity.links, id.toNat < db.size := by
    rw [← forall_mem_toList_iff]
    refine all_entriesOf classes fun entry row taken => ?_
    obtain ⟨key, entity⟩ := text?_of_pair? taken
    rw [Bool.and_eq_true, checkKey_iff key (fields_of_class? entity).1, checkClass_iff entity,
      length_entriesOf classes, Database.size]
  rw [all, forall₂_and]
  constructor
  · rintro ⟨keyed, wellKept, inRange⟩
    exact ⟨keyed, wellKept, inRange⟩
  · rintro ⟨keyed, wellKept, inRange⟩
    exact ⟨keyed, wellKept, inRange⟩

/-- A snapshot passes the check if and only if its database is in order. -/
theorem check_write {db : Database} (counted : (databaseValue db).Counted)
    (distinct : db.files.Nodup) (more : List UInt8) :
    check (write db ++ more) = true ↔ db.Orderly := by
  obtain ⟨value, stored, result⟩ := reads_write counted distinct
  rw [check, stored more, Option.any_some, checkDatabase_iff result]

/-- Reading a snapshot checks nothing: its database is in order if and only if what is
stored is. -/
theorem orderly_iff_check {bytes : List UInt8} {db : Database} (accepted : read bytes = .ok db) :
    db.Orderly ↔ check bytes = true := by
  unfold read at accepted
  split at accepted
  · rename_i value rest content
    split at accepted
    · rename_i result taken
      cases accepted
      rw [check, content, Option.any_some, checkDatabase_iff taken]
    · cases accepted
  · cases accepted

theorem orderly_iff_check_workshop :
    read (write (Workshop.database 127) ++ []) = .ok (Workshop.database 127) ∧
      ((Workshop.database 127).Orderly ↔ check (write (Workshop.database 127) ++ []) = true) :=
  have accepted := read_write (Workshop.counted 127) (by decide) []
  ⟨accepted, orderly_iff_check accepted⟩

/-- A bit that no flag word has is restored like any other. -/
theorem restores_disorder :
    read (write (Workshop.database 200) ++ []) = .ok (Workshop.database 200) ∧
      ¬(Workshop.database 200).Orderly := by
  refine ⟨read_write (Workshop.counted 200) (by decide) [], fun orderly => ?_⟩
  have kept := orderly.wellKept (Workshop.lamp 200) List.mem_cons_self
  have style := kept.lists (Workshop.style 200) List.mem_cons_self
  exact absurd (style.powers ⟨⟨200⟩, "On", true⟩ List.mem_cons_self) (by decide)

end Snapshot
end EntitySchema
