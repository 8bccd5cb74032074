import EntitySchema.Proofs.Compact.FixedPoint
import EntitySchema.Proofs.Inheritance.Unrepeated
import EntitySchema.Proofs.Linking.Progress

/-! Bases in the compact format. They are stored by name and added anew when they are read,
so bases that denote the same class come back as one; as long as none are repeated, all of
them come back. -/
namespace EntitySchema

namespace Database

variable {db : Database} {entity : EntityClass} {base : Base}

/-- A base is stored by a name of the class that it denotes. -/
theorem denoted?_eq (keyed : db.classes.KeyedBy EntityClass.name)
    (rooted : base.Rooted db.classes.keys) :
    base.denoted? db.classes.keys = some (fold (db.baseName base)) ∧
      trimmed (db.baseName base) = db.baseName base := by
  cases rooted with
  | named name => exact ⟨rfl, trimmed_fold_iff.mpr (trimmed_trimmed name)⟩
  | @linked id name known =>
    obtain ⟨target, found⟩ := OrderedMap.exists_entryAt?_of_keys known
    have stored : fold (trimmed name) = fold target.name :=
      keyed (fold (trimmed name), target) (OrderedMap.mem_toList_of_entryAt? found)
    have named : db.baseName (.linked id) = target.name := by
      rw [baseName, classAt?, found]
      rfl
    rw [named]
    refine ⟨by rw [Base.denoted?, known, stored], ?_⟩
    rw [← trimmed_fold_iff, ← stored, trimmed_fold_iff, trimmed_trimmed]

theorem map_denoted? (keyed : db.classes.KeyedBy EntityClass.name)
    (rooted : ∀ base ∈ entity.bases, base.Rooted db.classes.keys) :
    entity.bases.map (Base.denoted? db.classes.keys) =
      (entity.bases.map fun base => fold (db.baseName base)).map some := by
  rw [List.map_map]
  exact List.map_congr_left fun base inside => (denoted?_eq keyed (rooted base inside)).1

/-- Unrepeated bases have distinct names. -/
theorem nodup_baseNames (keyed : db.classes.KeyedBy EntityClass.name)
    (rooted : ∀ base ∈ entity.bases, base.Rooted db.classes.keys)
    (unrepeated : entity.Unrepeated db.classes.keys) :
    (entity.bases.map fun base => fold (db.baseName base)).Nodup := by
  rw [EntityClass.Unrepeated, map_denoted? keyed rooted] at unrepeated
  exact unrepeated.of_map

/-- Unrepeated bases are all read back, to wait under the folded names of their classes. -/
theorem bases_rebuilt (keyed : db.classes.KeyedBy EntityClass.name)
    (rooted : ∀ base ∈ entity.bases, base.Rooted db.classes.keys)
    (unrepeated : entity.Unrepeated db.classes.keys) :
    (db.rebuilt entity).bases = entity.bases.map fun base => .named (fold (db.baseName base)) := by
  have names : (entity.bases.map db.baseName).map EntityClass.baseNamed =
      (entity.bases.map fun base => fold (db.baseName base)).map .named := by
    rw [List.map_map, List.map_map]
    refine List.map_congr_left fun base inside => ?_
    simp only [Function.comp_apply, EntityClass.baseNamed,
      (denoted?_eq keyed (rooted base inside)).2]
  have distinct : ((EntityClass.plain entity.category entity.name).bases ++
      (entity.bases.map db.baseName).map EntityClass.baseNamed).Nodup := by
    rw [names]
    exact (nodup_baseNames keyed rooted unrepeated).map fun _ _ => Base.named.inj
  rw [(db.rebuilt_eq entity).2, EntityClass.foldl_addBase distinct, names, List.map_map]
  rfl

end Database

namespace Compact

variable {db : Database} {entity : EntityClass} {bytes : List UInt8}

theorem keys_reread (db : Database) : (reread db).classes.keys = db.classes.keys :=
  OrderedMap.keys_mapValues ..

theorem keyed_reread (keyed : db.classes.KeyedBy EntityClass.name) :
    (reread db).classes.KeyedBy EntityClass.name :=
  keyed.mapValues fun entity _ => (db.rebuilt_eq entity).1

section

variable (keyed : db.classes.KeyedBy EntityClass.name) (rooted : db.Rooted)
  (unrepeated : db.Unrepeated)

include keyed rooted unrepeated

/-- When a class has been read, its bases wait under the names of the classes they denoted. -/
theorem bases_reread (member : entity ∈ db.classes.values) :
    (db.rebuilt entity).bases = entity.bases.map (fun base => .named (fold (db.baseName base))) ∧
      (∀ base ∈ (db.rebuilt entity).bases, base.Rooted db.classes.keys) ∧
      (db.rebuilt entity).bases.map (Base.denoted? db.classes.keys) =
        entity.bases.map (Base.denoted? db.classes.keys) := by
  have slots := rooted entity member
  have bases := Database.bases_rebuilt keyed slots (unrepeated entity member)
  refine ⟨bases, fun base inside => ?_, ?_⟩
  · rw [bases, List.mem_map] at inside
    obtain ⟨before, there, rfl⟩ := inside
    rw [← (Database.denoted?_eq keyed (slots before there)).2]
    exact .named _
  · rw [bases, List.map_map]
    refine List.map_congr_left fun base inside => ?_
    rw [(Database.denoted?_eq keyed (slots base inside)).1, Function.comp_apply, Base.denoted?,
      fold_fold]

theorem rooted_reread : (reread db).Rooted := by
  intro entity member
  rw [reread, OrderedMap.values_mapValues] at member
  obtain ⟨before, inside, rfl⟩ := List.mem_map.mp member
  rw [keys_reread]
  exact (bases_reread keyed rooted unrepeated inside).2.1

theorem unrepeated_reread : (reread db).Unrepeated := by
  intro entity member
  rw [reread, OrderedMap.values_mapValues] at member
  obtain ⟨before, inside, rfl⟩ := List.mem_map.mp member
  rw [keys_reread, EntityClass.Unrepeated, (bases_reread keyed rooted unrepeated inside).2.2]
  exact unrepeated before inside

/-- What has been read can be linked exactly if the database could be. -/
theorem clear_reread_iff : (reread db).linkBases.2 = none ↔ db.linkBases.2 = none := by
  rw [Database.linkBases_clear_iff, Database.linkBases_clear_iff, keys_reread, reread,
    OrderedMap.values_mapValues, List.forall_mem_map]
  refine forall₂_congr fun entity member => ?_
  obtain ⟨bases, -⟩ := bases_reread keyed rooted unrepeated member
  have waiting : ∀ name, name ∈ (db.rebuilt entity).names ↔
      ∃ base ∈ entity.bases, fold (db.baseName base) = name := by
    intro name
    rw [EntityClass.mem_names, bases, List.mem_map]
    simp
  constructor
  · intro known name inside
    have again := known _ ((waiting _).mpr ⟨.named name, EntityClass.mem_names.mp inside, rfl⟩)
    rwa [fold_fold] at again
  · intro known name inside
    obtain ⟨base, there, rfl⟩ := (waiting name).mp inside
    rw [fold_fold]
    cases base with
    | named name => exact known name (EntityClass.mem_names.mpr there)
    | linked id =>
      -- the class that is linked is stored under its name
      have denoted := (Database.denoted?_eq keyed (rooted entity member _ there)).1
      exact List.mem_of_getElem? denoted

end

/-- What has become of the bases of a database: no two of a class denote the same class, and
there are as many as before, in the same order, under the same folded names; and where all were
linked they are the same. -/
structure BasesKept (db back : Database) : Prop where
  keys : back.classes.keys = db.classes.keys
  unrepeated : back.Unrepeated
  classes : ∀ name entity, db.find? name = some entity → ∃ kept, back.find? name = some kept ∧
    kept.bases.length = entity.bases.length ∧
    (kept.bases.map fun base => fold (back.baseName base)) =
      (entity.bases.map fun base => fold (db.baseName base)) ∧
    (entity.names = [] → kept.bases = entity.bases ∧
      kept.bases.map back.baseName = entity.bases.map db.baseName)

namespace BasesKept

variable {back : Database}

/-- Bases that were all linked are linked to the same classes again. -/
theorem bases_eq (keyed : db.classes.KeyedBy EntityClass.name) (rooted : db.Rooted)
    (unrepeated : db.Unrepeated) (member : entity ∈ db.classes.values) (linked : entity.names = [])
    {bases : List Base}
    (links : List.Forall₂ (Base.Links (reread db).idOf?) (db.rebuilt entity).bases bases) :
    bases = entity.bases := by
  have again : List.Forall₂ (Base.Links (reread db).idOf?) (db.rebuilt entity).bases
      entity.bases := by
    rw [(bases_reread keyed rooted unrepeated member).1]
    refine List.forall₂_map_left_iff.mpr (List.forall₂_same.mpr fun base inside => ?_)
    cases base with
    | named name => exact absurd (EntityClass.mem_names.mpr inside) (by simp [linked])
    | linked id =>
      have denoted := (Database.denoted?_eq keyed (rooted entity member _ inside)).1
      refine .named (Database.idOf?_of_keys ?_)
      rw [keys_reread, fold_fold]
      exact denoted
  have first := EntityClass.linkBases_eq_ok_iff.mpr ⟨bases, links, rfl⟩
  rw [EntityClass.linkBases_eq_ok_iff.mpr ⟨entity.bases, again, rfl⟩, Except.ok.injEq] at first
  exact (congrArg EntityClass.bases first).symm

/-- Classes that have been linked again have their names. -/
theorem baseName_eq (clear : (reread db).linkBases.2 = none) {id : ClassId} {key : String}
    (known : db.classes.keys[id.toNat]? = some key) :
    (reread db).linkBases.1.baseName (.linked id) = db.baseName (.linked id) := by
  obtain ⟨target, found⟩ := OrderedMap.exists_entryAt?_of_keys known
  have read : (reread db).classes.entryAt? id.toNat = some (key, db.rebuilt target) := by
    rw [reread, OrderedMap.entryAt?_mapValues, found, Option.map_some]
  obtain ⟨bases, -, placed⟩ := Database.entryAt?_linkBases clear read
  simp only [Database.baseName, Database.classAt?, placed, found, Option.map_some]
  exact (db.rebuilt_eq target).1

theorem map_baseName_eq (keyed : db.classes.KeyedBy EntityClass.name) (rooted : db.Rooted)
    (clear : (reread db).linkBases.2 = none) (member : entity ∈ db.classes.values)
    (linked : entity.names = []) :
    entity.bases.map (reread db).linkBases.1.baseName = entity.bases.map db.baseName := by
  refine List.map_congr_left fun base inside => ?_
  cases base with
  | named name => exact absurd (EntityClass.mem_names.mpr inside) (by simp [linked])
  | linked id =>
    exact baseName_eq clear (Database.denoted?_eq keyed (rooted entity member _ inside)).1

/-- A class is found again as it was rebuilt, its bases linked. -/
theorem exists_kept (clear : (reread db).linkBases.2 = none) {name : String}
    (found : db.find? name = some entity) : ∃ bases,
      List.Forall₂ (Base.Links (reread db).idOf?) (db.rebuilt entity).bases bases ∧
      (reread db).linkBases.1.find? name = some { db.rebuilt entity with bases } := by
  obtain ⟨i, place⟩ := List.mem_iff_getElem?.mp (OrderedMap.get?_eq_some_iff.mp found)
  have read : (reread db).classes.entryAt? i = some (fold name, db.rebuilt entity) := by
    rw [reread, OrderedMap.entryAt?_mapValues, OrderedMap.entryAt?_eq, place, Option.map_some]
  obtain ⟨bases, links, placed⟩ := Database.entryAt?_linkBases clear read
  rw [OrderedMap.entryAt?_eq] at placed
  exact ⟨bases, links, OrderedMap.get?_of_toList placed⟩

/-- Slot by slot the same classes are denoted, and with them their folded names. -/
theorem of_linked (keyed : db.classes.KeyedBy EntityClass.name) (rooted : db.Rooted)
    (unrepeated : db.Unrepeated) (few : db.size ≤ UInt32.size)
    (linked : (reread db).linkBases = (back, none)) : BasesKept db back := by
  have clear : (reread db).linkBases.2 = none := congrArg Prod.snd linked
  obtain rfl : (reread db).linkBases.1 = back := congrArg Prod.fst linked
  have fewRead : (reread db).size ≤ UInt32.size :=
    (OrderedMap.size_mapValues db.rebuilt db.classes).trans_le few
  have keys : (reread db).linkBases.1.classes.keys = db.classes.keys :=
    ((reread db).linkFrom_keys 0).trans (keys_reread db)
  have keyedBack := Database.keyed_linkBases (keyed_reread keyed)
  have rootedBack := (rooted_reread keyed rooted unrepeated).linkBases fewRead
  refine ⟨keys, (unrepeated_reread keyed rooted unrepeated).linkBases fewRead, ?_⟩
  intro name entity found
  have member := OrderedMap.mem_values.mpr ⟨_, OrderedMap.get?_eq_some_iff.mp found⟩
  obtain ⟨bases, links, again⟩ := exists_kept clear found
  have kept := OrderedMap.mem_values.mpr ⟨_, OrderedMap.get?_eq_some_iff.mp again⟩
  have denoted : bases.map (Base.denoted? db.classes.keys) =
      entity.bases.map (Base.denoted? db.classes.keys) := by
    rw [← (bases_reread keyed rooted unrepeated member).2.2, ← keys_reread]
    exact Base.map_denoted?_of_links fewRead links
  have named := Database.map_denoted? keyedBack (rootedBack _ kept)
  rw [keys, denoted, Database.map_denoted? keyed (rooted entity member)] at named
  have names := List.map_injective_iff.mpr (Option.some_injective String) named
  refine ⟨_, again, ?_, names.symm, fun linkedAll => ?_⟩
  · simpa using congrArg List.length denoted
  · have same := bases_eq keyed rooted unrepeated member linkedAll links
    have named := map_baseName_eq keyed rooted clear member linkedAll
    exact ⟨same, by rw [same, named]⟩

end BasesKept

end Compact

namespace Edit

variable {edits : List Edit}

/-- No class has two bases that denote the same class, through a row of edits, exactly if no
edit adds a base to a stored class under the name of one that it has been linked to. As long
as that is so, names of bases are distinct; and if the database can be encoded, it is decoded
when its bases can be linked, and then with as many bases of the same names. -/
theorem unrepeated_bases (built : ∀ edit ∈ edits, edit.Built)
    (few : (runAll edits).size ≤ UInt32.size) :
    ((∀ earlier, earlier <+: edits → (runAll earlier).Unrepeated) ↔
      ∀ earlier edit, earlier ++ [edit] <+: edits → ¬edit.Repeats (runAll earlier)) ∧
    ((runAll edits).Unrepeated →
      (∀ entity ∈ (runAll edits).classes.values,
        (entity.bases.map fun base => fold ((runAll edits).baseName base)).Nodup) ∧
      ∀ bytes, Compact.encode (runAll edits) = .ok bytes →
        ((∃ back, Compact.decode bytes = .ok back) ↔ (runAll edits).linkBases.2 = none) ∧
        ∀ back, Compact.decode bytes = .ok back → Compact.BasesKept (runAll edits) back) := by
  have keyed := keyed_runAll edits
  have rooted := rooted_runAll built few
  refine ⟨unrepeated_runAll_iff built few, fun unrepeated => ⟨fun entity member => ?_, ?_⟩⟩
  · exact Database.nodup_baseNames keyed (rooted entity member) (unrepeated entity member)
  · intro bytes encoded
    constructor
    · rw [← Compact.clear_reread_iff keyed rooted unrepeated]
      constructor
      · rintro ⟨back, decoded⟩
        rw [(Compact.decode_eq_ok_iff keyed encoded).mp decoded]
      · intro clear
        exact ⟨_, (Compact.decode_eq_ok_iff keyed encoded).mpr (Prod.ext rfl clear)⟩
    · intro back decoded
      exact .of_linked keyed rooted unrepeated few
        ((Compact.decode_eq_ok_iff keyed encoded).mp decoded)

namespace Doubled

def parent : EntityClass := .plain .base "Parent"

def child : EntityClass := (EntityClass.plain .point "Child").addBase "Parent"

/-- A class is linked to another, to which it had been added under two spellings. -/
def history : List Edit :=
  [.define parent, .define child, .extend "CHILD" [.base " PARENT "], .linkBases]

/-- The same base once more. -/
def again : Edit := .extend "Child" [.base "Parent"]

def linkedChild : EntityClass := { EntityClass.plain .point "Child" with bases := [.linked 0] }

theorem built : ∀ edit ∈ history ++ [again], edit.Built := by
  have parentBuilt : parent.Built := ⟨parent, [], rfl, rfl⟩
  have childBuilt : child.Built := ⟨.plain .point "Child", [.base "Parent"], rfl, rfl⟩
  simp [history, again, Built, defined?, parentBuilt, childBuilt]

theorem toList_extended :
    (runAll [.define parent, .define child, .extend "CHILD" [.base " PARENT "]]).classes.toList =
      [("parent", parent), ("child", child)] := by
  have defined : (runAll [.define parent, .define child]).classes.toList =
      [("parent", parent), ("child", child)] := by
    have distinct : ([("parent", parent), ("child", child)].map Prod.fst).Nodup := by decide
    exact OrderedMap.toList_ofList distinct
  -- both spellings are those of the base that is there
  have known : child.extend [.base " PARENT "] = child := rfl
  refine (OrderedMap.toList_modify ..).trans ?_
  refine (congrArg (List.map _) defined).trans ?_
  rw [show fold "CHILD" = "child" by decide]
  simp [known]

theorem toList_history :
    (runAll history).classes.toList = [("parent", parent), ("child", linkedChild)] := by
  let db := runAll [.define parent, .define child, .extend "CHILD" [.base " PARENT "]]
  have known : db.idOf? "parent" = some 0 := by
    refine Database.idOf?_of_keys ?_
    rw [OrderedMap.keys, toList_extended]
    decide
  have parentLinked : parent.linkBases db.idOf? = .ok parent :=
    EntityClass.linkBases_of_linked rfl _
  have childLinked : child.linkBases db.idOf? = .ok linkedChild :=
    EntityClass.linkBases_eq_ok_iff.mpr ⟨[.linked 0], .cons (.named known) .nil, rfl⟩
  refine db.linkBases_eq_linkRow.1.trans ?_
  rw [toList_extended, linkRow_of_ok parentLinked, linkRow_of_ok childLinked]
  rfl

theorem keys_history : (runAll history).classes.keys = ["parent", "child"] := by
  rw [OrderedMap.keys, toList_history]
  rfl

theorem size_doubled : (runAll (history ++ [again])).size ≤ UInt32.size := by
  rw [Database.size, ← OrderedMap.length_keys, keys_runAll]
  decide

theorem repeats_again : again.Repeats (runAll history) := by
  refine ⟨linkedChild, ?_, "Parent", List.mem_cons_self, 0, List.mem_cons_self, ?_⟩
  · refine OrderedMap.get?_of_toList (i := 1) ?_
    rw [toList_history]
    rfl
  · rw [keys_history]
    decide

theorem unrepeated_history : (runAll history).Unrepeated := by
  intro entity member
  rw [OrderedMap.values, toList_history] at member
  rw [keys_history]
  simp only [List.map_cons, List.map_nil, List.mem_cons, List.not_mem_nil, or_false] at member
  rcases member with rfl | rfl
  · exact List.nodup_nil
  · exact List.nodup_singleton _

theorem encode_history : ∃ bytes, Compact.encode (runAll history) = .ok bytes := by
  have target : (runAll history).classAt? 0 = some parent := by
    rw [Database.classAt?, OrderedMap.entryAt?_eq, toList_history]
    rfl
  have bases : linkedChild.bases.map (Compact.baseLayout (runAll history) "Child") =
      [.text "Parent"] := by
    have base : Compact.baseLayout (runAll history) "Child" (.linked 0) = .text "Parent" := by
      rw [Compact.baseLayout, target]
      rfl
    exact congrArg (fun layout => [layout]) base
  have layout : Compact.layout (runAll history) = .ofFields [.byte 0, .byte 0, .byte 0, .byte 0,
      .byte 0, .text "Parent", .byte 1, .byte 1, .byte 0, .byte 0, .byte 0, .text "Child",
      .text "Parent"] := by
    rw [Compact.layout, OrderedMap.values, toList_history]
    simp only [List.map_cons, List.map_nil]
    rw [Compact.classLayout, Compact.classLayout, show linkedChild.name = "Child" from rfl, bases]
    rfl
  have laid : Compact.Laid ["Parent", "Child"] (Compact.layout (runAll history)) := by
    rw [layout]
    exact .ofFields (by decide)
  have few : (runAll history).size < UInt32.size := by
    rw [Database.size, ← OrderedMap.length_keys, keys_history]
    decide
  exact Compact.encode_total (by decide) (by decide) few laid

end Doubled

/-- A class that has been linked to its base comes back with it. -/
theorem unrepeated_bases_doubled : (∀ edit ∈ Doubled.history, edit.Built) ∧
    (runAll Doubled.history).size ≤ UInt32.size ∧ (runAll Doubled.history).Unrepeated ∧
    ∃ bytes back, Compact.encode (runAll Doubled.history) = .ok bytes ∧
      Compact.decode bytes = .ok back ∧ Compact.BasesKept (runAll Doubled.history) back := by
  have built : ∀ edit ∈ Doubled.history, edit.Built := fun edit member =>
    Doubled.built edit (List.mem_append_left _ member)
  have few := Nat.le_trans (size_le_size_runAll (List.prefix_append ..)) Doubled.size_doubled
  obtain ⟨bytes, encoded⟩ := Doubled.encode_history
  obtain ⟨-, kept⟩ := (unrepeated_bases built few).2 Doubled.unrepeated_history
  obtain ⟨decodes, same⟩ := kept bytes encoded
  have clear : (runAll Doubled.history).linkBases.2 = none := by
    rw [Database.linkBases_clear_iff, OrderedMap.values, Doubled.toList_history]
    simp [Doubled.linkedChild, Doubled.parent, EntityClass.names, EntityClass.plain]
  obtain ⟨back, decoded⟩ := decodes.mpr clear
  exact ⟨built, few, Doubled.unrepeated_history, bytes, back, encoded, decoded,
    same back decoded⟩

/-- Adding the base once more after it has been linked doubles it: it is not true that bases are
never repeated. -/
theorem not_unrepeated_runAll :
    ¬∀ edits : List Edit, (∀ edit ∈ edits, edit.Built) → (runAll edits).size ≤ UInt32.size →
      (runAll edits).Unrepeated := by
  intro never
  refine (unrepeated_runAll_iff Doubled.built Doubled.size_doubled).mp (fun earlier prior => ?_)
    Doubled.history Doubled.again List.prefix_rfl Doubled.repeats_again
  exact never earlier (fun edit member => Doubled.built edit (prior.subset member))
    (Nat.le_trans (size_le_size_runAll prior) Doubled.size_doubled)

end Edit
end EntitySchema
