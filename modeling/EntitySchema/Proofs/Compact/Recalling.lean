import EntitySchema.Compact.Decoding
import EntitySchema.Proofs.Building
import EntitySchema.Proofs.Compact.Layout

/-! Each part of a class is read back as it was laid out, less what the compact format
leaves out. A class comes back with the names of its bases, which are linked only when
all classes have been read. Parts that are not well-formed come back too, in the shape that
their types require. -/
namespace EntitySchema

/-- The keyvalue without what the compact format leaves out. -/
def KeyValue.compacted (keyValue : KeyValue) : KeyValue :=
  { keyValue with
    description := ""
    initial := if keyValue.type = .flags then "" else keyValue.initial }

/-- The flag as it is read back: its exponent is stored in seven bits. -/
def FlagEntry.packed (entry : FlagEntry) : FlagEntry :=
  { entry with bit := ⟨entry.bit.power % 128⟩ }

/-- The keyvalue as it is read back, with the list that its type requires. -/
def KeyValue.packed (keyValue : KeyValue) : KeyValue :=
  { keyValue.compacted with
    values :=
      match keyValue.type with
      | .flags => some (.flags (keyValue.flags.map FlagEntry.packed))
      | .choices => some (.choices keyValue.choices)
      | _ => none }

theorem FlagEntry.packed_eq_self {entry : FlagEntry} (power : entry.bit.power ≤ 127) :
    entry.packed = entry := by
  have same : entry.bit.power % 128 = entry.bit.power := by
    apply UInt8.toNat_inj.mp
    rw [UInt8.toNat_mod]
    exact Nat.mod_eq_of_lt (Nat.lt_succ_of_le (UInt8.le_iff_toNat_le.mp power))
  rw [packed, same]

theorem KeyValue.WellFormed.packed_eq {keyValue : KeyValue} (wellFormed : keyValue.WellFormed) :
    keyValue.packed = keyValue.compacted := by
  have values : keyValue.packed.values = keyValue.values := by
    rcases keyValue.type.hasList_cases with type | type | plain
    · have same : keyValue.flags.map FlagEntry.packed = keyValue.flags :=
        (List.map_congr_left fun entry member =>
          FlagEntry.packed_eq_self (wellFormed.powers entry member)).trans (List.map_id' _)
      simp only [KeyValue.packed, type, same, wellFormed.values_of_flags type]
    · simp only [KeyValue.packed, type, wellFormed.values_of_choices type]
    · rw [wellFormed.values_of_plain plain, KeyValue.packed]
      cases type : keyValue.type <;> simp_all [ValueType.hasList]
  exact congrArg (fun values => { keyValue.compacted with values }) values

/-- The signal without what the compact format leaves out. -/
def Signal.compacted (signal : Signal) : Signal := { signal with description := "" }

/-- The class without what the compact format leaves out. -/
def EntityClass.compacted (entity : EntityClass) : EntityClass :=
  { entity with
    keyValues := entity.keyValues.mapValues KeyValue.compacted
    inputs := entity.inputs.mapValues Signal.compacted
    outputs := entity.outputs.mapValues Signal.compacted
    helpers := []
    description := "" }

/-- The database without what the compact format leaves out. -/
def Database.compacted (db : Database) : Database :=
  { db with classes := db.classes.mapValues EntityClass.compacted, files := [] }

/-- The name that a base is stored by. -/
def Database.baseName (db : Database) : Base → String
  | .named name => name
  | .linked id =>
    match db.classAt? id with
    | some entity => entity.name
    | none => ""

/-- The class that is made from the parts read back, its bases waiting to be linked. -/
def Database.rebuilt (db : Database) (entity : EntityClass) : EntityClass :=
  (entity.outputs.values.map Signal.compacted).foldl (EntityClass.addSignal · .output)
    ((entity.inputs.values.map Signal.compacted).foldl (EntityClass.addSignal · .input)
      ((entity.keyValues.values.map KeyValue.packed).foldl EntityClass.addKeyValue
        ((entity.bases.map db.baseName).foldl EntityClass.addBase
          (.plain entity.category entity.name))))

/-- A class is rebuilt under its name, with the bases that come of adding theirs. -/
theorem Database.rebuilt_eq (db : Database) (entity : EntityClass) :
    (db.rebuilt entity).name = entity.name ∧ (db.rebuilt entity).bases =
      ((entity.bases.map db.baseName).foldl EntityClass.addBase
        (.plain entity.category entity.name)).bases := by
  obtain ⟨bases, made, -⟩ := EntityClass.exists_foldl_addBase (entity.bases.map db.baseName)
    (.plain entity.category entity.name) List.nodup_nil
  rw [rebuilt, EntityClass.foldl_addSignal_output, EntityClass.foldl_addSignal_input,
    EntityClass.foldl_addKeyValue, made]
  exact ⟨rfl, rfl⟩

/-- The class as it is first read back: compacted, its bases waiting to be linked. -/
def Database.unlinked (db : Database) (entity : EntityClass) : EntityClass :=
  { entity.compacted with
    bases := entity.bases.map fun base => EntityClass.baseNamed (db.baseName base) }

namespace Compact

variable {dictionary : Dictionary}

theorem marked_lt (n : Nat) (mark : Bool) : marked n mark < 256 := by
  rw [marked]
  split <;> omega

theorem toNat_marked (n : Nat) (mark : Bool) : (marked n mark).toUInt8.toNat = marked n mark := by
  simpa using marked_lt n mark

/-- The mark and the number, of which seven bits are kept, can be told apart again. -/
theorem unpack_marked (n : Nat) (mark : Bool) :
    (marked n mark).toUInt8 % 128 = n.toUInt8 % 128 ∧
      decide ((marked n mark).toUInt8 ≥ 128) = mark := by
  have whole := toNat_marked n mark
  constructor
  · apply UInt8.toNat_inj.mp
    rw [UInt8.toNat_mod, UInt8.toNat_mod, whole, marked]
    split <;> simp
  · have least : (128 : UInt8).toNat = 128 := rfl
    simp only [ge_iff_le, UInt8.le_iff_toNat_le, least, marked]
    cases mark <;> simp <;> omega

theorem recalls_flag (small : dictionary.size ≤ maxStrings) (entry : FlagEntry) :
    Recalls dictionary (readFlag dictionary.table) (flagLayout entry) entry.packed := by
  obtain ⟨number, mark⟩ := unpack_marked entry.bit.power.toNat entry.initial
  rw [show entry.bit.power.toNat.toUInt8 = entry.bit.power by simp] at number
  have power : entry.bit.power % 128 ≤ 127 := by
    rw [UInt8.le_iff_toNat_le, UInt8.toNat_mod]
    exact Nat.le_of_lt_succ (Nat.mod_lt _ (by decide))
  rw [flagLayout, Layout.ofFields_cons]
  refine (Recalls.byte _).bind fun _ => (Recalls.text small _).last fun _ => ?_
  rw [number, mark, FlagBit.ofPower?, if_pos power]
  exact Recalls.pure entry.packed

theorem recalls_choice (small : dictionary.size ≤ maxStrings) (choice : Choice) :
    Recalls dictionary (readChoice dictionary.table) (choiceLayout choice) choice := by
  rw [choiceLayout, Layout.ofFields_cons]
  exact (Recalls.text small _).bind fun _ => (Recalls.text small _).last fun _ =>
    Recalls.pure choice

theorem recalls_valueType (type : ValueType) :
    Recalls dictionary (valueTypeAt type.index.toUInt8) (.ofFields []) type := by
  have small : type.index < 35 := type.index_lt
  have index : type.index.toUInt8.toNat = type.index := by
    simp
    omega
  rw [valueTypeAt, index, ValueType.ofIndex?_index]
  exact Recalls.pure type

theorem keyValueLayout_of_plain {keyValue : KeyValue} (classname : String)
    (plain : keyValue.type.hasList = false) :
    keyValueLayout classname keyValue = .ofFields [.text keyValue.name, .text keyValue.displayName,
      .byte (marked keyValue.type.index keyValue.readonly).toUInt8] ++ .text keyValue.initial := by
  rw [keyValueLayout]
  split <;> simp_all [ValueType.hasList]

/-- The fields that all keyvalues begin with, read in front of what depends on the type. -/
theorem recalls_head {α : Type} {next : String → String → UInt8 → Decoder α} {back : Layout}
    {value : α} (small : dictionary.size ≤ maxStrings) (name displayName : String) (packed : UInt8)
    (others : Recalls dictionary (next name displayName packed) back value) :
    Recalls dictionary
      (do
        let name ← dictionary.table.readString
        let displayName ← dictionary.table.readString
        let packed ← Reader.u8
        next name displayName packed)
      (.ofFields [.text name, .text displayName, .byte packed] ++ back) value := by
  rw [Layout.ofFields_cons, Layout.ofFields_cons (.text displayName), Layout.append_assoc,
    Layout.append_assoc]
  exact (Recalls.text small _).bind fun _ => (Recalls.text small _).bind fun _ =>
    (Recalls.byte _).bind fun _ => others

theorem recalls_keyValue (small : dictionary.size ≤ maxStrings) (classname : String)
    (keyValue : KeyValue) :
    Recalls dictionary (readKeyValue dictionary.table) (keyValueLayout classname keyValue)
      keyValue.packed := by
  obtain ⟨number, mark⟩ := unpack_marked keyValue.type.index keyValue.readonly
  have typeRead : Recalls dictionary
      (valueTypeAt ((marked keyValue.type.index keyValue.readonly).toUInt8 % 128)) (.ofFields [])
      keyValue.type := by
    have below : keyValue.type.index.toUInt8 % 128 = keyValue.type.index.toUInt8 := by
      cases keyValue.type <;> rfl
    rw [number, below]
    exact recalls_valueType _
  rcases keyValue.type.hasList_cases with type | type | plain
  · have packed : keyValue.packed = ⟨keyValue.name, .flags, keyValue.displayName, "", "",
        keyValue.readonly, some (.flags (keyValue.flags.map FlagEntry.packed))⟩ := by
      simp [KeyValue.packed, KeyValue.compacted, type]
    have layout : keyValueLayout classname keyValue =
        .ofFields [.text keyValue.name, .text keyValue.displayName,
          .byte (marked keyValue.type.index keyValue.readonly).toUInt8] ++
        (.count8 .flag keyValue.flags.length classname ++
          .concat (keyValue.flags.map flagLayout)) := by
      simp only [keyValueLayout, type, Layout.append_assoc]
    rw [layout]
    refine recalls_head small _ _ _ (typeRead.silent ?_)
    rw [type] at mark ⊢
    apply (Recalls.count8 _ _ _).bind
    intro clear
    have counted : keyValue.flags.length.toUInt8.toNat = keyValue.flags.length :=
      UInt8.toNat_ofNat_of_lt (Nat.lt_succ_of_le (Layout.count8_problem.mp clear))
    refine (Recalls.many counted fun entry _ => recalls_flag small entry).last fun _ => ?_
    rw [packed]
    simp only [mark]
    exact Recalls.pure _
  · have packed : keyValue.packed = ⟨keyValue.name, .choices, keyValue.displayName,
        keyValue.initial, "", keyValue.readonly, some (.choices keyValue.choices)⟩ := by
      simp [KeyValue.packed, KeyValue.compacted, type]
    have layout : keyValueLayout classname keyValue =
        .ofFields [.text keyValue.name, .text keyValue.displayName,
          .byte (marked keyValue.type.index keyValue.readonly).toUInt8] ++
        (.text keyValue.initial ++ (.count16 .choice keyValue.choices.length classname ++
          .concat (keyValue.choices.map choiceLayout))) := by
      simp only [keyValueLayout, type, Layout.append_assoc]
    rw [layout]
    refine recalls_head small _ _ _ (typeRead.silent ?_)
    rw [type] at mark ⊢
    refine (Recalls.text small _).bind fun _ => (Recalls.count16 _ _ _).bind fun clear => ?_
    have counted : keyValue.choices.length.toUInt16.toNat = keyValue.choices.length :=
      UInt16.toNat_ofNat_of_lt (Nat.lt_succ_of_le (Layout.count16_problem.mp clear))
    refine (Recalls.many counted fun choice _ =>
      recalls_choice small choice).last fun _ => ?_
    rw [packed, List.map_id']
    simp only [mark]
    exact Recalls.pure _
  · have packed : keyValue.packed = ⟨keyValue.name, keyValue.type, keyValue.displayName,
        keyValue.initial, "", keyValue.readonly, none⟩ := by
      rw [KeyValue.packed, KeyValue.compacted]
      cases type : keyValue.type <;> simp_all [ValueType.hasList]
    rw [keyValueLayout_of_plain classname plain]
    refine recalls_head small _ _ _ (typeRead.silent ?_)
    split
    · rename_i type
      simp [type, ValueType.hasList] at plain
    · rename_i type
      simp [type, ValueType.hasList] at plain
    · apply (Recalls.text small _).last
      intro _
      rw [packed]
      simp only [mark]
      exact Recalls.pure _

theorem recalls_signal (small : dictionary.size ≤ maxStrings) (signal : Signal) :
    Recalls dictionary (readSignal dictionary.table) (signalLayout signal) signal.compacted := by
  intro clear
  by_cases listed : signal.type.hasList
  · simp [signalLayout, listed, Layout.stop] at clear
  · have layout : signalLayout signal =
        .ofFields [.text signal.name] ++ .ofFields [.byte signal.type.index.toUInt8] := by
      rw [signalLayout, if_neg listed, Layout.ofFields_cons]
    rw [layout] at clear ⊢
    refine ((Recalls.text small _).bind fun _ => (Recalls.byte _).last fun _ =>
      (recalls_valueType _).silent ?_) clear
    rw [if_neg listed]
    exact Recalls.pure _

theorem recalls_base (small : dictionary.size ≤ maxStrings) (db : Database) (classname : String)
    (base : Base) :
    Recalls dictionary dictionary.table.readString (baseLayout db classname base)
      (db.baseName base) := by
  intro clear
  cases base with
  | named name => exact Recalls.text small name clear
  | linked id =>
    rw [baseLayout] at clear ⊢
    rw [Database.baseName]
    cases found : db.classAt? id with
    | none => simp [found, Layout.stop] at clear
    | some entity =>
      rw [found] at clear
      exact Recalls.text small entity.name clear

theorem recalls_category (category : Category) :
    Recalls dictionary readCategory (.byte category.index) category := by
  apply (Recalls.byte _).last
  intro _
  have index : category.index.toUInt8.toNat = category.index := by
    cases category <;> rfl
  simp only [index, Category.ofIndex?_index]
  exact Recalls.pure category

/-- Adding the parts that were read in the order in which they were laid out makes the
class anew. -/
theorem rebuilt_eq_unlinked {db : Database} {entity : EntityClass} (wellKept : entity.WellKept)
    (distinct : (entity.bases.map fun base => EntityClass.baseNamed (db.baseName base)).Nodup) :
    db.rebuilt entity = db.unlinked entity := by
  have bases : ((EntityClass.plain entity.category entity.name).bases ++
      (entity.bases.map db.baseName).map EntityClass.baseNamed).Nodup := by
    rw [List.map_map]
    exact distinct
  have lists : entity.keyValues.values.map KeyValue.packed =
      entity.keyValues.values.map KeyValue.compacted :=
    List.map_congr_left fun keyValue member => (wellKept.lists keyValue member).packed_eq
  have keyValues := (wellKept.keyValues.mapValues (f := KeyValue.compacted)
    fun _ _ => rfl).foldl_insert_values
  have inputs := (wellKept.inputs.mapValues (f := Signal.compacted)
    fun _ _ => rfl).foldl_insert_values
  have outputs := (wellKept.outputs.mapValues (f := Signal.compacted)
    fun _ _ => rfl).foldl_insert_values
  rw [OrderedMap.values_mapValues] at keyValues inputs outputs
  rw [Database.rebuilt, lists, EntityClass.foldl_addBase bases, EntityClass.foldl_addKeyValue,
    EntityClass.foldl_addSignal_input, EntityClass.foldl_addSignal_output]
  simp only [EntityClass.plain, keyValues, inputs, outputs, List.map_map, List.nil_append]
  rfl

theorem recalls_class (small : dictionary.size ≤ maxStrings) (db : Database)
    (entity : EntityClass) :
    Recalls dictionary (readClass dictionary.table) (classLayout db entity)
      (db.rebuilt entity) := by
  simp only [classLayout, List.map_append, Layout.concat_append, Layout.append_assoc]
  apply (recalls_category _).bind
  intro _
  apply (Recalls.count8 _ _ _).bind
  intro basesClear
  apply (Recalls.count8 _ _ _).bind
  intro keyValuesClear
  apply (Recalls.count8 _ _ _).bind
  intro inputsClear
  apply (Recalls.count8 _ _ _).bind
  intro outputsClear
  have counted {what : Counted} {count : Nat}
      (clear : (Layout.count8 what count entity.name).problem = none) :
      count.toUInt8.toNat = count :=
    UInt8.toNat_ofNat_of_lt (Nat.lt_succ_of_le (Layout.count8_problem.mp clear))
  apply (Recalls.text small _).bind
  intro _
  refine (Recalls.many (counted basesClear) fun base _ =>
    recalls_base small db entity.name base).bind fun _ => ?_
  refine (Recalls.many ((counted keyValuesClear).trans entity.keyValues.length_values.symm)
    fun keyValue _ => recalls_keyValue small entity.name keyValue).bind fun _ => ?_
  refine (Recalls.many ((counted inputsClear).trans entity.inputs.length_values.symm)
    fun signal _ => recalls_signal small signal).bind fun _ => ?_
  refine (Recalls.many ((counted outputsClear).trans entity.outputs.length_values.symm)
    fun signal _ => recalls_signal small signal).last fun _ => ?_
  exact Recalls.pure _

end Compact
end EntitySchema
