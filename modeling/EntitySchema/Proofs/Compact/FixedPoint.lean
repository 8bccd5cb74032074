import EntitySchema.Proofs.Compact.Decoded
import EntitySchema.Proofs.Compact.RoundTrip

/-! Whatever bytes a database was decoded from, it can be encoded, and decoding that gives
the same database: limits on reading are no wider than those on writing, and bases lead
to classes whose names are as good as trimmed. -/
namespace EntitySchema.Compact

variable {stock : List String} {start db : Database}

/-- A layout with few enough short strings can be encoded. -/
theorem encode_total (limited : stock.length ≤ maxStrings)
    (short : ∀ text ∈ stock, (utf8 text).length ≤ maxStringBytes) (few : db.size < UInt32.size)
    (laid : Laid stock (layout db)) : ∃ bytes, encode db = .ok bytes := by
  obtain ⟨clear, known⟩ := laid
  obtain ⟨dictionary, entered⟩ :
      ∃ dictionary, Dictionary.enterAll (textsOf (layout db).fields) .empty = .ok () dictionary :=
    Dictionary.enterAll_total limited (fun text member => by cases member) known
  have all := (Dictionary.enterAll_ok entered (by decide)).1
  obtain ⟨table, written⟩ : ∃ table, dictionary.serialize = .ok table := by
    refine Dictionary.serialize_total fun text member => short text ?_
    rcases (all text).mp member with used | before
    · exact known text used
    · cases before
  exact ⟨_, encode_eq_ok_iff.mpr ⟨dictionary, table, entered, clear, few, written, rfl⟩⟩

namespace DatabaseRead

/-- Every class that has been linked was read, and only its bases are different. -/
theorem exists_original (read : DatabaseRead stock start) (linked : start.linkBases = (db, none))
    {key : String} {entity : EntityClass} (entry : (key, entity) ∈ db.classes.toList) :
    ∃ original bases, ClassRead stock original ∧ key = fold original.name ∧
      List.Forall₂ (Base.Links start.idOf?) original.bases bases ∧
      entity = { original with bases } := by
  have clear : start.linkBases.2 = none := by rw [linked]
  obtain ⟨i, found⟩ := List.mem_iff_getElem?.mp entry
  rw [← OrderedMap.entryAt?_eq, show db = start.linkBases.1 by rw [linked]] at found
  obtain ⟨original, before, succeeded⟩ := Database.exists_linked clear found
  obtain ⟨bases, links, rfl⟩ := EntityClass.linkBases_eq_ok_iff.mp succeeded
  have member := OrderedMap.mem_toList_of_entryAt? before
  exact ⟨original, bases, read.classes original (OrderedMap.mem_values.mpr ⟨key, member⟩),
    read.keyed _ member, links, rfl⟩

theorem keyed_linked (read : DatabaseRead stock start) (linked : start.linkBases = (db, none)) :
    db.classes.KeyedBy EntityClass.name := by
  rintro ⟨key, entity⟩ entry
  obtain ⟨original, bases, -, stored, -, rfl⟩ := read.exists_original linked entry
  exact stored

/-- The name that a base waits under leads to a class whose name is trimmed. -/
theorem exists_target (read : DatabaseRead stock start) (linked : start.linkBases = (db, none))
    {name : String} {id : ClassId} (found : start.idOf? (fold (trimmed name)) = some id) :
    ∃ target ∈ db.classes.values, db.classAt? id = some target ∧
      trimmed target.name = target.name := by
  simp only [Database.idOf?, Option.map_eq_some_iff, fold_fold] at found
  obtain ⟨i, position, rfl⟩ := found
  have inside : i < start.size := OrderedMap.lt_size_of_position? position
  have keys : db.classes.keys = start.classes.keys := by
    rw [show db = start.linkBases.1 by rw [linked], Database.linkBases, Database.linkFrom_keys]
  rw [OrderedMap.position?_eq, ← keys, ← OrderedMap.position?_eq] at position
  obtain ⟨within, stored⟩ := OrderedMap.position?_eq_some position
  have whole : i.toUInt32.toNat = i :=
    UInt32.toNat_ofNat_of_lt (Nat.lt_trans inside read.few)
  have entry := Database.entryAt?_of_lt within
  have member := OrderedMap.mem_toList_of_entryAt? entry
  refine ⟨db.classes.entries[i].2, OrderedMap.mem_values.mpr ⟨_, member⟩, ?_, ?_⟩
  · rw [Database.classAt?, whole, entry]
    rfl
  · have folded := (read.keyed_linked linked _ member).symm.trans stored
    rw [← trimmed_fold_iff, folded, trimmed_fold_iff, trimmed_trimmed]

theorem target_of_base (read : DatabaseRead stock start) (linked : start.linkBases = (db, none))
    {entity : EntityClass} (member : entity ∈ db.classes.values) {base : Base}
    (inside : base ∈ entity.bases) : ∃ id, base = .linked id ∧ ∃ target ∈ db.classes.values,
      db.classAt? id = some target ∧ trimmed target.name = target.name := by
  obtain ⟨key, entry⟩ := OrderedMap.mem_values.mp member
  obtain ⟨original, bases, classRead, -, links, rfl⟩ := read.exists_original linked entry
  obtain ⟨before, waiting, link⟩ := exists_of_forall₂ links inside
  obtain ⟨name, rfl⟩ := classRead.named before waiting
  obtain ⟨id, known, rfl⟩ := Base.links_named_iff.mp link
  exact ⟨id, rfl, read.exists_target linked known⟩

theorem storable_linked (read : DatabaseRead stock start) (linked : start.linkBases = (db, none)) :
    db.Storable := by
  refine ⟨read.keyed_linked linked, fun entity member => ?_, fun entity member base inside => ?_,
    fun entity member => ?_⟩
  · obtain ⟨key, entry⟩ := OrderedMap.mem_values.mp member
    obtain ⟨original, bases, classRead, -, -, rfl⟩ := read.exists_original linked entry
    exact ⟨classRead.wellKept.keyValues, classRead.wellKept.inputs, classRead.wellKept.outputs,
      classRead.wellKept.lists⟩
  · obtain ⟨id, rfl, target, -, found, bare⟩ := read.target_of_base linked member inside
    exact ⟨id, target, rfl, found, bare⟩
  · obtain ⟨key, entry⟩ := OrderedMap.mem_values.mp member
    obtain ⟨original, bases, classRead, -, links, rfl⟩ := read.exists_original linked entry
    have folded : ∀ name ∈ original.names, fold name = name := by
      intro name waiting
      obtain ⟨_, same⟩ := classRead.named _ (EntityClass.mem_names.mp waiting)
      rw [Base.named.inj same, fold_fold]
    have unlinked : original.links = [] := by
      apply List.eq_nil_iff_forall_not_mem.mpr
      intro id inside
      obtain ⟨_, same⟩ := classRead.named _ (EntityClass.mem_links.mp inside)
      cases same
    have distinct := classRead.distinct
    rw [EntityClass.bases_eq_of_unlinked unlinked] at distinct
    exact (EntityClass.linksApart_of_unlinked unlinked folded distinct.of_map links).nodup
      (Nat.le_of_lt read.few)

theorem rest_of_linked (linked : start.linkBases = (db, none)) :
    db.mapMin = start.mapMin ∧ db.mapMax = start.mapMax ∧ db.files = start.files := by
  have rest := start.linkFrom_rest 0
  rw [← Database.linkBases, linked] at rest
  change db = { start with classes := db.classes } at rest
  rw [rest]
  exact ⟨rfl, rfl, rfl⟩

theorem size_linked (linked : start.linkBases = (db, none)) : start.size = db.size := by
  rw [← start.linkBases_size, linked]

theorem compacted_linked (read : DatabaseRead stock start) (linked : start.linkBases = (db, none)) :
    db.compacted = db := by
  have classes : db.classes.mapValues EntityClass.compacted = db.classes := by
    apply OrderedMap.mapValues_eq_self
    intro entity member
    obtain ⟨key, entry⟩ := OrderedMap.mem_values.mp member
    obtain ⟨original, bases, classRead, -, -, rfl⟩ := read.exists_original linked entry
    exact congrArg (fun entity : EntityClass => { entity with bases }) classRead.compacted
  have files : db.files = [] := by
    rw [(rest_of_linked linked).2.2, read.files]
  rw [Database.compacted, classes, ← files]

theorem laid_linked (read : DatabaseRead stock start) (linked : start.linkBases = (db, none)) :
    Laid stock (layout db) := by
  apply Laid.concat
  intro layout laid
  obtain ⟨entity, member, rfl⟩ := List.mem_map.mp laid
  have bases : Laid stock (.concat (entity.bases.map (baseLayout db entity.name))) := by
    apply Laid.concat
    intro layout laid
    obtain ⟨base, inside, rfl⟩ := List.mem_map.mp laid
    obtain ⟨id, rfl, target, targetMember, found, -⟩ := read.target_of_base linked member inside
    obtain ⟨key, entry⟩ := OrderedMap.mem_values.mp targetMember
    obtain ⟨original, bases, classRead, -, -, rfl⟩ := read.exists_original linked entry
    rw [baseLayout, found]
    exact .text classRead.name
  obtain ⟨key, entry⟩ := OrderedMap.mem_values.mp member
  obtain ⟨original, linkedBases, classRead, -, links, rfl⟩ := read.exists_original linked entry
  have fewBases : linkedBases.length ≤ 255 := links.length_eq ▸ classRead.fewBases
  refine ((((((((Laid.byte _).append (.count8 fewBases _ _)).append
    (.count8 classRead.fewKeyValues _ _)).append (.count8 classRead.fewInputs _ _)).append
    (.count8 classRead.fewOutputs _ _)).append (.text classRead.name)).append bases).append
    (.concat fun layout laid => ?_)).append (.concat fun layout laid => ?_)
  · obtain ⟨keyValue, inside, rfl⟩ := List.mem_map.mp laid
    exact (classRead.keyValues keyValue inside).laid _
  · obtain ⟨signal, inside, rfl⟩ := List.mem_map.mp laid
    rcases List.mem_append.mp inside with input | output
    · exact (classRead.inputs signal input).laid
    · exact (classRead.outputs signal output).laid

end DatabaseRead

/-- Whatever was decoded can be encoded, and comes back as it is. -/
theorem fixed_point {bytes : List UInt8} (decoded : decode bytes = .ok db) :
    ∃ again, encode db = .ok again ∧ decode again = .ok db := by
  rw [decode] at decoded
  split at decoded
  · rename_i start after ran
    obtain ⟨stock, read⟩ := yields_readDatabase _ _ _ ran
    cases linking : start.linkBases with
    | mk result problem =>
      rw [linking] at decoded
      cases problem with
      | some problem => cases decoded
      | none =>
        cases decoded
        obtain ⟨again, encoded⟩ := encode_total read.limited read.short
          (DatabaseRead.size_linked linking ▸ read.few) (read.laid_linked linking)
        obtain ⟨mapMin, mapMax, -⟩ := DatabaseRead.rest_of_linked linking
        obtain ⟨low, lowRead⟩ := read.mapMin
        obtain ⟨high, highRead⟩ := read.mapMax
        refine ⟨again, encoded, ?_⟩
        rw [decode_encode_of_stable_bounds (read.storable_linked linking) encoded,
          read.compacted_linked linking]
        · rw [mapMin, lowRead, Binary64.toInt64_ofInt64_toInt64]
        · rw [mapMax, highRead, Binary64.toInt64_ofInt64_toInt64]
  · cases decoded

namespace Lights

def looseTexts : List String := ["Target", "Light", "Style", "On", " TARGET ", "Light"]

def looseClasses : List UInt8 :=
  [0, 0, 0, 0, 0, 0, 0] ++ [1, 0, 0, 0, 0, 0, 5] ++
    [1, 1, 1, 0, 0, 0, 1, 0, 4, 0, 2, 0, 2, 2, 1, 0x83, 0, 3]

def looseTable : List UInt8 :=
  bigEndian 4 6 ++ looseTexts.flatMap fun text => bigEndian 2 (utf8 text).length ++ utf8 text

/-- The lights in an older version, with a fractional bound, a string that is not needed, a
class that comes twice, a padded name of a base and a byte at the end. -/
def looseEncoding : List UInt8 :=
  magic ++ ([0] ++ (bigEndian 8 0xc0d0002000000000 ++ (bigEndian 8 0x40d0000000000000 ++
    (bigEndian 4 3 ++ (looseTable ++ (looseClasses ++ [0xff]))))))

/-- The second form of the class, its base waiting to be linked. -/
def waitingLight : EntityClass :=
  { EntityClass.plain .point "Light" with bases := [.named "target"] }.addKeyValue style.compacted

def waiting : Database :=
  [.plain .base "Target", .plain .point "Light", waitingLight].foldl Database.define
    ⟨∅, -16384, 16384, []⟩

theorem reads_looseTable : Reads StringTable.read looseTable ⟨looseTexts.toArray⟩ := by
  have entries : ∀ texts : List String, (∀ text ∈ texts, (utf8 text).length ≤ maxStringBytes) →
      List.Forall₂ (fun text bytes => Dictionary.entryBytes text = .ok bytes) texts
        (texts.map fun text => bigEndian 2 (utf8 text).length ++ utf8 text) := fun texts short =>
    List.forall₂_map_right_iff.mpr (List.forall₂_same.mpr fun text member =>
      if_pos (short text member))
  have read := reads_readEntries (entries looseTexts (by decide)) #[]
  rw [← List.flatMap_def] at read
  exact (reads_u32 6).bind read

theorem readDatabase_looseEncoding :
    ∃ after, readDatabase (.ofBytes looseEncoding) = .ok waiting after := by
  have version : Reads readVersion [0] () := by
    rw [← List.append_nil [(0 : UInt8)]]
    exact (reads_u8 0).bind (Reads.pure ())
  have classes : readMany (readClass ⟨looseTexts.toArray⟩) [] 3 ⟨looseClasses ++ [0xff], 71⟩ =
      .ok [.plain .base "Target", .plain .point "Light", waitingLight] ⟨[0xff], 103⟩ := rfl
  have length : looseTable.length = 47 := by decide
  have low : Binary64.toInt64 (Nat.toUInt64 0xc0d0002000000000).toNat = -16384 := by decide
  have high : Binary64.toInt64 (Nat.toUInt64 0x40d0000000000000).toNat = 16384 := by decide
  refine ⟨⟨[0xff], 103⟩, ?_⟩
  rw [looseEncoding, Reader.ofBytes, readDatabase, reads_magic.run_bind, version.run_bind,
    (reads_u64 _).run_bind, (reads_u64 _).run_bind, (reads_u32 _).run_bind,
    reads_looseTable.run_bind]
  simp only [length, low, high, length_bigEndian]
  exact bind_of_ran classes

theorem unlinked_target : database.unlinked target = .plain .base "Target" := by
  simp only [Database.unlinked, EntityClass.compacted, target, EntityClass.plain,
    OrderedMap.mapValues_empty, List.map_nil]

theorem unlinked_light : database.unlinked light = waitingLight := by
  have name : database.baseName (.linked 0) = "Target" := by
    rw [Database.baseName, classAt?_zero]
    rfl
  have bases : light.bases.map (fun base => EntityClass.baseNamed (database.baseName base)) =
      [.named "target"] := by
    rw [light, EntityClass.addKeyValue, List.map_singleton, name, EntityClass.baseNamed]
    decide
  have keyValues : light.keyValues.mapValues KeyValue.compacted = waitingLight.keyValues := by
    apply OrderedMap.ext_toList
    rw [OrderedMap.toList_mapValues, toList_keyValues, waitingLight, EntityClass.addKeyValue,
      OrderedMap.toList_insert_of_not_mem List.not_mem_nil]
    rfl
  rw [Database.unlinked, bases, EntityClass.compacted, keyValues]
  simp only [light, waitingLight, EntityClass.addKeyValue, EntityClass.plain,
    OrderedMap.mapValues_empty]

theorem classes_waiting :
    waiting.classes = database.classes.mapValues database.unlinked := by
  let two := OrderedMap.ofList
    [(fold "Target", EntityClass.plain .base "Target"), (fold "Light", .plain .point "Light")]
  have second : two.toList =
      [("target", .plain .base "Target"), ("light", .plain .point "Light")] :=
    OrderedMap.toList_ofList (by decide)
  have position : two.position? (fold "Light") = some 1 := by
    rw [OrderedMap.position?_eq, OrderedMap.keys, second]
    decide
  have third := OrderedMap.toList_insert_of_position? position waitingLight
  apply OrderedMap.ext_toList
  rw [OrderedMap.toList_mapValues, toList_classes, List.map_cons, List.map_singleton,
    unlinked_target, unlinked_light, waiting, Database.foldl_define]
  rw [second] at third
  exact third

end Lights

/-- A database decoded from an encoding that is not canonical. -/
theorem fixed_point_looseEncoding : decode Lights.looseEncoding = .ok Lights.database.compacted ∧
    ∃ again, encode Lights.database.compacted = .ok again ∧
      decode again = .ok Lights.database.compacted := by
  obtain ⟨after, read⟩ := Lights.readDatabase_looseEncoding
  have waiting : Lights.waiting = { Lights.database with
      classes := Lights.database.classes.mapValues Lights.database.unlinked, files := [] } := by
    rw [← Lights.classes_waiting]
    rw [Lights.waiting, Database.foldl_define]
    rfl
  have decoded : decode Lights.looseEncoding = .ok Lights.database.compacted := by
    simp only [decode, read, waiting, Lights.storable.linkBases_eq]
  exact ⟨decoded, fixed_point decoded⟩

end EntitySchema.Compact
