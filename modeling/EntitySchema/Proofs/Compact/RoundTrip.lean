import EntitySchema.Proofs.Compact.Relinking
import EntitySchema.Proofs.MapBounds

/-! The compact format brings back every storable database, less the parts that it leaves
out, and what it leaves out makes no difference to the bytes. -/
namespace EntitySchema.Compact

variable {db : Database} {bytes : List UInt8}

/-- When encoding succeeds, and with which bytes. -/
theorem encode_eq_ok_iff :
    encode db = .ok bytes ↔ ∃ dictionary table,
      Dictionary.enterAll (textsOf (layout db).fields) .empty = .ok () dictionary ∧
        (layout db).problem = none ∧ db.size < UInt32.size ∧ dictionary.serialize = .ok table ∧
        bytes = headerBytes db ++ table ++ (layout db).fields.flatMap (fieldBytes dictionary) := by
  constructor
  · intro encoded
    simp only [encode, encodeCause] at encoded
    cases entered : Dictionary.enterAll (textsOf (layout db).fields) .empty with
    | error problem dictionary =>
      rw [entered] at encoded
      cases encoded
    | ok done dictionary =>
      cases clear : (layout db).problem with
      | some cause =>
        rw [entered, clear] at encoded
        cases encoded
      | none =>
        rw [entered, clear] at encoded
        by_cases large : db.size ≥ UInt32.size
        · simp only [large, if_true] at encoded
          cases encoded
        · simp only [large, if_false] at encoded
          cases written : dictionary.serialize with
          | error problem =>
            rw [written] at encoded
            cases encoded
          | ok table =>
            rw [written] at encoded
            cases encoded
            exact ⟨dictionary, table, rfl, rfl, Nat.lt_of_not_le large, written, rfl⟩
  · rintro ⟨dictionary, table, entered, clear, small, written, rfl⟩
    simp only [encode, encodeCause, entered, clear, written, if_neg (Nat.not_le_of_lt small)]
    rfl

theorem reads_magic : Reads readMagic magic () := by
  intro rest offset
  have read := reads_take magic rest offset
  simp only [readMagic, read, if_true]

theorem reads_version : Reads readVersion [version] () := by
  rw [← List.append_nil [version]]
  exact (reads_u8 version).bind (Reads.pure ())

/-- Every database that can be encoded is read back, its bases waiting to be linked. -/
theorem reads_encoded (encoded : encode db = .ok bytes) :
    Reads readDatabase bytes ((db.classes.values.map db.rebuilt).foldl Database.define
      ⟨∅, Binary64.toInt64 (Binary64.ofInt64 db.mapMin),
        Binary64.toInt64 (Binary64.ofInt64 db.mapMax), []⟩) := by
  obtain ⟨dictionary, table, entered, clear, small, written, rfl⟩ := encode_eq_ok_iff.mp encoded
  obtain ⟨known, room⟩ := Dictionary.enterAll_ok entered (by decide)
  simp only [headerBytes, List.append_assoc]
  refine reads_magic.bind (reads_version.bind ?_)
  refine (reads_u64 _).bind ((reads_u64 _).bind ((reads_u32 _).bind ?_))
  apply (reads_table room written).bind
  have counted : db.size.toUInt32.toNat = db.classes.values.length := by
    rw [OrderedMap.length_values]
    exact UInt32.toNat_ofNat_of_lt small
  have classes : Recalls dictionary
      (readMany (readClass dictionary.table) [] db.size.toUInt32.toNat)
      (layout db) (db.classes.values.map db.rebuilt) :=
    Recalls.many counted fun entity _ => recalls_class room db entity
  have body := classes clear fun text used => (known text).mpr (Or.inl used)
  rw [← List.append_nil (List.flatMap _ _)]
  apply body.bind
  have mapMin : (Binary64.ofInt64 db.mapMin).toUInt64.toNat = Binary64.ofInt64 db.mapMin :=
    UInt64.toNat_ofNat_of_lt (Binary64.ofInt64_lt db.mapMin)
  have mapMax : (Binary64.ofInt64 db.mapMax).toUInt64.toNat = Binary64.ofInt64 db.mapMax :=
    UInt64.toNat_ofNat_of_lt (Binary64.ofInt64_lt db.mapMax)
  simp only [mapMin, mapMax]
  exact Reads.pure _

/-- What is read of a database: its classes as they are rebuilt, bases waiting to be linked. -/
def reread (db : Database) : Database :=
  ⟨db.classes.mapValues db.rebuilt, Binary64.toInt64 (Binary64.ofInt64 db.mapMin),
    Binary64.toInt64 (Binary64.ofInt64 db.mapMax), []⟩

/-- Decoding comes to linking what has been read. -/
theorem decode_eq_ok_iff (keyed : db.classes.KeyedBy EntityClass.name)
    (encoded : encode db = .ok bytes) {back : Database} :
    decode bytes = .ok back ↔ (reread db).linkBases = (back, none) := by
  have read := reads_encoded encoded
  have defined := (keyed.mapValues (f := db.rebuilt) fun entity _ =>
    (db.rebuilt_eq entity).1).foldl_insert_values
  rw [OrderedMap.values_mapValues] at defined
  rw [Database.foldl_define, defined] at read
  have ran : readDatabase ⟨bytes ++ [], 0⟩ = .ok (reread db) ⟨[], 0 + bytes.length⟩ := read [] 0
  rw [List.append_nil] at ran
  rw [decode, Reader.ofBytes, ran]
  rcases linked : (reread db).linkBases with ⟨after, _ | problem⟩ <;> simp [linked]

/-- What the format leaves of a database whose bases are linked: its bounds are rounded. -/
def restored (db : Database) : Database :=
  db.compacted.setMapSize (Binary64.toInt64 (Binary64.ofInt64 db.mapMin))
    (Binary64.toInt64 (Binary64.ofInt64 db.mapMax))

theorem decode_encode (storable : db.Storable) (encoded : encode db = .ok bytes) :
    decode bytes = .ok (restored db) := by
  have rebuilt : db.classes.mapValues db.rebuilt = db.classes.mapValues db.unlinked :=
    OrderedMap.mapValues_congr fun entity member =>
      rebuilt_eq_unlinked (storable.wellKept entity member) (storable.nodup_baseNamed member)
  have bounded : (db.setMapSize (Binary64.toInt64 (Binary64.ofInt64 db.mapMin))
      (Binary64.toInt64 (Binary64.ofInt64 db.mapMax))).Storable :=
    ⟨storable.keyed, storable.wellKept, storable.linked, storable.distinct⟩
  rw [decode_eq_ok_iff storable.keyed encoded, reread, rebuilt]
  exact bounded.linkBases_eq

theorem decode_encode_of_stable_bounds (storable : db.Storable) (encoded : encode db = .ok bytes)
    (low : Binary64.toInt64 (Binary64.ofInt64 db.mapMin) = db.mapMin)
    (high : Binary64.toInt64 (Binary64.ofInt64 db.mapMax) = db.mapMax) :
    decode bytes = .ok db.compacted := by
  rw [decode_encode storable encoded, restored, low, high]
  rfl

theorem classAt?_compacted (db : Database) (id : ClassId) :
    db.compacted.classAt? id = (db.classAt? id).map EntityClass.compacted := by
  simp only [Database.classAt?, Database.compacted, OrderedMap.entryAt?_mapValues, Option.map_map]
  rfl

theorem keyValueLayout_compacted (classname : String) (keyValue : KeyValue) :
    keyValueLayout classname keyValue.compacted = keyValueLayout classname keyValue := by
  rcases keyValue.type.hasList_cases with type | type | plain
  · simp only [keyValueLayout, KeyValue.compacted, type]
    rfl
  · simp only [keyValueLayout, KeyValue.compacted, type]
    rfl
  · have unlisted : keyValue.type ≠ .flags := by
      intro type
      simp [type, ValueType.hasList] at plain
    rw [keyValueLayout_of_plain classname plain, keyValueLayout_of_plain]
    · simp only [KeyValue.compacted, unlisted, if_false]
    · exact plain

theorem baseLayout_compacted (db : Database) (classname : String) :
    baseLayout db.compacted classname = baseLayout db classname := by
  funext base
  cases base with
  | named name => rfl
  | linked id =>
    simp only [baseLayout, classAt?_compacted]
    cases db.classAt? id with
    | none => rfl
    | some entity => rfl

theorem classLayout_compacted (db : Database) (entity : EntityClass) :
    classLayout db.compacted entity.compacted = classLayout db entity := by
  have signals : signalLayout ∘ Signal.compacted = signalLayout := rfl
  have keyValues : keyValueLayout entity.name ∘ KeyValue.compacted = keyValueLayout entity.name :=
    funext fun keyValue => keyValueLayout_compacted entity.name keyValue
  simp only [classLayout, EntityClass.compacted, OrderedMap.size_mapValues,
    OrderedMap.values_mapValues, List.map_append, List.map_map, signals, keyValues,
    baseLayout_compacted]

/-- What the format leaves out makes no difference to the bytes. -/
theorem encode_compacted (db : Database) : encode db.compacted = encode db := by
  have classes : layout db.compacted = layout db := by
    have each : classLayout db.compacted ∘ EntityClass.compacted = classLayout db :=
      funext (classLayout_compacted db)
    simp only [layout, Database.compacted, OrderedMap.values_mapValues, List.map_map]
    rw [← Database.compacted, each]
  have size : db.compacted.size = db.size := OrderedMap.size_mapValues _ _
  simp only [encode, encodeCause, headerBytes, classes, size]
  rfl

/-- A storable database with bounds of up to 53 binary digits is brought back, less what
the format leaves out, and what is brought back has the same encoding. -/
theorem round_trip (storable : db.Storable) (low : db.mapMin.toInt.natAbs ≤ 2 ^ 53)
    (high : db.mapMax.toInt.natAbs ≤ 2 ^ 53) (encoded : encode db = .ok bytes) :
    decode bytes = .ok db.compacted ∧ encode db.compacted = .ok bytes := by
  constructor
  · exact decode_encode_of_stable_bounds storable encoded (Binary64.toInt64_ofInt64 low)
      (Binary64.toInt64_ofInt64 high)
  · rw [encode_compacted, encoded]

namespace Lights

def style : KeyValue :=
  ⟨"Style", .flags, "Style", "7", "", false, some (.flags [⟨⟨3⟩, "On", true⟩])⟩

def target : EntityClass := { EntityClass.plain .base "Target" with description := "Goals." }

def light : EntityClass :=
  { EntityClass.plain .point "Light" with bases := [.linked 0] }.addKeyValue style

/-- A light with a flag word that inherits from a class of targets. -/
def database : Database :=
  ((Database.empty.define target).define light).setMapSize (-16384) 16384

def dictionary : Dictionary :=
  ⟨((((∅ : OrderedMap Unit).insert "Target" ()).insert "Light" ()).insert "Style" ()).insert
    "On" ()⟩

def table : List UInt8 :=
  [0, 0, 0, 4] ++ [0, 6] ++ utf8 "Target" ++ [0, 5] ++ utf8 "Light" ++ [0, 5] ++ utf8 "Style" ++
    [0, 2] ++ utf8 "On"

def encoding : List UInt8 :=
  [0x46, 0x47, 0x44, 1, 0xc0, 0xd0, 0, 0, 0, 0, 0, 0, 0x40, 0xd0, 0, 0, 0, 0, 0, 0, 0, 0, 0, 2] ++
    table ++ [0, 0, 0, 0, 0, 0, 0, 1, 1, 1, 0, 0, 0, 1, 0, 0, 0, 2, 0, 2, 2, 1, 0x83, 0, 3]

theorem toList_keyValues : light.keyValues.toList = [("style", style)] := by
  have distinct : ([("style", style)].map Prod.fst).Nodup := by decide
  exact OrderedMap.toList_ofList distinct

theorem toList_classes : database.classes.toList = [("target", target), ("light", light)] := by
  have distinct : ([("target", target), ("light", light)].map Prod.fst).Nodup := by decide
  exact OrderedMap.toList_ofList distinct

theorem classAt?_zero : database.classAt? 0 = some target := by
  rw [Database.classAt?, OrderedMap.entryAt?_eq, toList_classes]
  rfl

theorem layout_database : layout database = .ofFields [.byte 0, .byte 0, .byte 0, .byte 0, .byte 0,
    .text "Target", .byte 1, .byte 1, .byte 1, .byte 0, .byte 0, .text "Light", .text "Target",
    .text "Style", .text "Style", .byte 2, .byte 1, .byte 0x83, .text "On"] := by
  have bases : light.bases.map (baseLayout database light.name) = [.text "Target"] := by
    have base : baseLayout database "Light" (.linked 0) = .text "Target" := by
      rw [baseLayout, classAt?_zero]
      rfl
    exact congrArg (fun layout => [layout]) base
  have count : light.keyValues.size = 1 := by
    rw [← OrderedMap.length_toList, toList_keyValues]
    rfl
  have keyValues : light.keyValues.values = [style] := by
    rw [OrderedMap.values, toList_keyValues]
    rfl
  rw [layout, OrderedMap.values, toList_classes]
  simp only [List.map_cons, List.map_nil]
  rw [classLayout, classLayout, bases, count, keyValues]
  rfl

theorem keys_dictionary : dictionary.strings.keys = ["Target", "Light", "Style", "On"] := by
  simp [dictionary, OrderedMap.keys_insert, OrderedMap.keys_empty]

theorem encode_database : encode database = .ok encoding := by
  have size : database.size = 2 := by
    rw [Database.size, ← OrderedMap.length_toList, toList_classes]
    rfl
  refine encode_eq_ok_iff.mpr ⟨dictionary, table, ?_, ?_, ?_, ?_, ?_⟩
  · rw [layout_database]
    simp [Layout.ofFields, textsOf, Dictionary.enterAll, Dictionary.enter, dictionary,
      Dictionary.empty, Dictionary.size, OrderedMap.position?_eq, ← OrderedMap.length_keys,
      OrderedMap.keys_insert, OrderedMap.keys_empty, List.idxOf?_cons, maxStrings, UInt16.size]
  · rw [layout_database]
    rfl
  · rw [size]
    decide
  · rw [Dictionary.serialize, Dictionary.size, ← OrderedMap.length_keys, keys_dictionary]
    decide
  · rw [layout_database, headerBytes, size]
    simp only [Layout.ofFields, List.flatMap_cons, List.flatMap_nil, fieldBytes,
      Dictionary.idOf?_eq, keys_dictionary]
    decide

theorem storable : database.Storable := by
  have members : ∀ entity, entity ∈ database.classes.values ↔ entity = target ∨ entity = light := by
    intro entity
    rw [OrderedMap.values, toList_classes]
    simp
  refine ⟨?_, ?_, ?_, ?_⟩
  · exact (OrderedMap.KeyedBy.empty.insert target).insert light
  · intro entity member
    rcases (members entity).mp member with rfl | rfl
    · exact ⟨.empty, .empty, .empty, fun _ none => by cases none⟩
    · refine ⟨OrderedMap.KeyedBy.empty.insert style, .empty, .empty, fun keyValue member => ?_⟩
      rw [OrderedMap.values, toList_keyValues, List.map_singleton, List.mem_singleton] at member
      subst member
      exact ⟨rfl, by decide⟩
  · intro entity member base inside
    rcases (members entity).mp member with rfl | rfl
    · cases inside
    · obtain rfl := List.mem_singleton.mp inside
      exact ⟨0, target, rfl, classAt?_zero, by decide⟩
  · intro entity member
    rcases (members entity).mp member with rfl | rfl
    · exact List.nodup_nil
    · exact List.nodup_singleton 0

end Lights

theorem round_trip_lights :
    decode Lights.encoding = .ok Lights.database.compacted ∧
      encode Lights.database.compacted = .ok Lights.encoding :=
  round_trip Lights.storable (by decide) (by decide) Lights.encode_database

end EntitySchema.Compact
