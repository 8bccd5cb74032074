import EntitySchema.Proofs.Compact.Recalling
import EntitySchema.Proofs.Linking

/-! Databases that the compact format can bring back, and why: the names that their bases
are stored by are distinct and lead back to the same classes, so linking the classes
that have been read back restores every base. -/
namespace EntitySchema

/-- Classes and members are well kept, and every base is linked, once, to a class whose
name stays the same when it is trimmed. -/
structure Database.Storable (db : Database) : Prop where
  keyed : db.classes.KeyedBy EntityClass.name
  wellKept : ∀ entity ∈ db.classes.values, entity.WellKept
  linked : ∀ entity ∈ db.classes.values, ∀ base ∈ entity.bases, ∃ id target,
    base = .linked id ∧ db.classAt? id = some target ∧ trimmed target.name = target.name
  distinct : ∀ entity ∈ db.classes.values, entity.links.Nodup

namespace Database

variable {db : Database} {entity : EntityClass}

theorem idOf?_of_classAt? (keyed : db.classes.KeyedBy EntityClass.name) {id : ClassId}
    (found : db.classAt? id = some entity) : db.idOf? entity.name = some id := by
  simp only [classAt?, Option.map_eq_some_iff] at found
  obtain ⟨⟨key, value⟩, entry, rfl⟩ := found
  have stored : key = fold value.name := keyed _ (OrderedMap.mem_toList_of_entryAt? entry)
  subst stored
  simp [idOf?, OrderedMap.position?_of_entryAt? entry]

namespace Storable

theorem bases_eq (storable : db.Storable) (member : entity ∈ db.classes.values) :
    entity.bases = entity.links.map Base.linked :=
  entity.bases_eq_of_linked fun base inside =>
    let ⟨id, _, same, _⟩ := storable.linked entity member base inside
    ⟨id, same⟩

/-- The name a base is stored by leads back to its class. -/
theorem idOf?_baseNamed (storable : db.Storable) (member : entity ∈ db.classes.values) {base : Base}
    (inside : base ∈ entity.bases) :
    ∃ id, base = .linked id ∧ db.idOf? (fold (trimmed (db.baseName base))) = some id := by
  obtain ⟨id, target, rfl, found, bare⟩ := storable.linked entity member base inside
  refine ⟨id, rfl, ?_⟩
  have name : db.baseName (.linked id) = target.name := by
    rw [baseName, found]
  rw [name, bare, idOf?, fold_fold]
  exact idOf?_of_classAt? storable.keyed found

theorem nodup_baseNamed (storable : db.Storable) (member : entity ∈ db.classes.values) :
    (entity.bases.map fun base => EntityClass.baseNamed (db.baseName base)).Nodup := by
  have distinct : entity.bases.Nodup := by
    rw [storable.bases_eq member]
    exact (storable.distinct entity member).map fun _ _ same => Base.linked.inj same
  apply distinct.map_on
  intro first inFirst second inSecond same
  obtain ⟨_, rfl, firstId⟩ := storable.idOf?_baseNamed member inFirst
  obtain ⟨_, rfl, secondId⟩ := storable.idOf?_baseNamed member inSecond
  rw [Base.named.inj same, secondId] at firstId
  rw [Option.some.inj firstId]

/-- Linking the bases of a class that has been read back makes the compacted class. -/
theorem linkBases_unlinked (storable : db.Storable) (member : entity ∈ db.classes.values) :
    (db.unlinked entity).linkBases db.idOf? = .ok entity.compacted := by
  refine EntityClass.linkBases_eq_ok_iff.mpr ⟨entity.bases, ?_, rfl⟩
  refine List.forall₂_map_left_iff.mpr (List.forall₂_same.mpr fun base inside => ?_)
  obtain ⟨id, rfl, found⟩ := storable.idOf?_baseNamed member inside
  exact .named found

/-- Linking all classes that have been read back makes the compacted database. -/
theorem linkBases_eq (storable : db.Storable) :
    linkBases { db with classes := db.classes.mapValues db.unlinked, files := [] } =
      (db.compacted, none) := by
  generalize before : { db with classes := db.classes.mapValues db.unlinked, files := [] } = start
  have names : start.idOf? = db.idOf? := by
    subst before
    funext name
    simp only [idOf?, OrderedMap.position?_eq, OrderedMap.keys_mapValues]
  have each : ∀ i key original, db.classes.entryAt? i = some (key, original) →
      start.classes.entryAt? i = some (key, db.unlinked original) ∧
        (db.unlinked original).linkBases start.idOf? = .ok original.compacted := by
    intro i key original found
    have member := OrderedMap.mem_values.mpr ⟨key, OrderedMap.mem_toList_of_entryAt? found⟩
    constructor
    · subst before
      rw [OrderedMap.entryAt?_mapValues, found]
      rfl
    · rw [names]
      exact storable.linkBases_unlinked member
  have clear : start.linkBases.2 = none := by
    apply linkFrom_succeeds
    intro i key entity _ found
    have original := found
    subst before
    rw [OrderedMap.entryAt?_mapValues, Option.map_eq_some_iff] at original
    obtain ⟨⟨_, original⟩, entry, same⟩ := original
    cases same
    exact ⟨_, (each i _ original entry).2⟩
  have classes : start.linkBases.1.classes = db.compacted.classes := by
    refine OrderedMap.ext_entryAt? ?_ fun i entry found => ?_
    · subst before
      rw [← OrderedMap.length_keys, linkBases, linkFrom_keys, OrderedMap.keys_mapValues, compacted,
        OrderedMap.size_mapValues, OrderedMap.length_keys]
    · rw [compacted, OrderedMap.entryAt?_mapValues, Option.map_eq_some_iff] at found
      obtain ⟨⟨key, original⟩, entry, rfl⟩ := found
      obtain ⟨placed, linked⟩ := each i key original entry
      obtain ⟨bases, links, result⟩ := entryAt?_linkBases clear placed
      rw [EntityClass.linkBases_eq_ok_iff.mpr ⟨bases, links, rfl⟩] at linked
      rw [result, Except.ok.inj linked]
  refine Prod.ext ?_ clear
  rw [linkBases, linkFrom_rest, ← linkBases, classes]
  subst before
  rfl

end Storable
end Database
end EntitySchema
