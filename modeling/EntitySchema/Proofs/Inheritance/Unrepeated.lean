import EntitySchema.Proofs.Editing

/-! Classes that stand twice among the bases of a class. A base is added unless its name waits
there already. Once names have been linked, that does not tell any more whether their classes
are there; so bases stay unrepeated through a row of edits exactly as long as no base is added
to a class under the name of one that the class has been linked to. -/
namespace EntitySchema

namespace Base

/-- The folded name of the class that a base denotes, given those of all classes in order. -/
def denoted? (keys : List String) : Base → Option String
  | named name => some (fold name)
  | linked id => keys[id.toNat]?

/-- A base as it was added, or a link to the class that was named. -/
inductive Rooted (keys : List String) : Base → Prop where
  | named (name : String) : Rooted keys (.named (fold (trimmed name)))
  | linked {id : ClassId} {name : String} (known : keys[id.toNat]? = some (fold (trimmed name))) :
      Rooted keys (.linked id)

section

variable {keys longer : List String} {base : Base}

namespace Rooted

theorem exists_denoted (rooted : base.Rooted keys) :
    ∃ name, base.denoted? keys = some (fold (trimmed name)) := by
  cases rooted with
  | named name => exact ⟨name, congrArg some (fold_fold _)⟩
  | linked known => exact ⟨_, known⟩

/-- Bases denote the same classes when further classes are there. -/
theorem denoted?_mono (rooted : base.Rooted keys) (kept : keys <+: longer) :
    base.denoted? longer = base.denoted? keys := by
  cases rooted with
  | named name => rfl
  | linked known =>
    obtain ⟨more, rfl⟩ := kept
    exact List.getElem?_append_left (List.getElem?_eq_some_iff.mp known).1

theorem mono (rooted : base.Rooted keys) (kept : keys <+: longer) : base.Rooted longer := by
  have same := rooted.denoted?_mono kept
  cases rooted with
  | named name => exact .named name
  | linked known => exact .linked (same.trans known)

end Rooted

variable {db : Database} {before after : Base}

/-- A base denotes the same class before and after it is linked. -/
theorem denoted?_of_links (few : db.size ≤ UInt32.size) (links : Links db.idOf? before after) :
    after.denoted? db.classes.keys = before.denoted? db.classes.keys := by
  cases links with
  | linked id => rfl
  | named known => exact Database.keys_of_idOf? few known

theorem map_denoted?_of_links {bases linked : List Base} (few : db.size ≤ UInt32.size)
    (links : List.Forall₂ (Links db.idOf?) bases linked) :
    linked.map (denoted? db.classes.keys) = bases.map (denoted? db.classes.keys) := by
  rw [← List.forall₂_eq_eq_eq, List.forall₂_map_left_iff, List.forall₂_map_right_iff]
  exact (links.imp fun _ _ link => denoted?_of_links few link).flip

theorem Rooted.of_links (rooted : before.Rooted db.classes.keys) (few : db.size ≤ UInt32.size)
    (links : Links db.idOf? before after) : after.Rooted db.classes.keys := by
  obtain ⟨name, denoted⟩ := rooted.exists_denoted
  have same := denoted?_of_links few links
  cases links with
  | linked id => exact rooted
  | named known => exact .linked (same.trans denoted)

end

end Base

namespace EntityClass

variable {keys : List String} {entity : EntityClass} {addition : Addition}
  {additions : List Addition}

/-- No two bases of the class denote the same class. -/
def Unrepeated (keys : List String) (entity : EntityClass) : Prop :=
  (entity.bases.map (Base.denoted? keys)).Nodup

/-- A class that was put together from one without bases. -/
def Built (entity : EntityClass) : Prop :=
  ∃ (start : EntityClass) (additions : List Addition),
    start.bases = [] ∧ entity = start.extend additions

theorem rooted_extend (rooted : ∀ base ∈ entity.bases, base.Rooted keys)
    (additions : List Addition) : ∀ base ∈ (entity.extend additions).bases, base.Rooted keys := by
  intro base inside
  obtain ⟨-, names, bases⟩ := entity.extend_keeps additions
  rw [bases, List.mem_append, List.mem_map] at inside
  rcases inside with old | ⟨name, -, rfl⟩
  · exact rooted base old
  · exact .named name

theorem linked_add {id : ClassId} :
    .linked id ∈ (entity.add addition).bases ↔ .linked id ∈ entity.bases := by
  obtain ⟨-, names, bases⟩ := entity.add_keeps addition
  simp [bases, baseNamed]

/-- A base that is added to a class without repetitions repeats one of its bases exactly if that
one has been linked to the class that is named. -/
theorem unrepeated_addBase_iff (rooted : ∀ base ∈ entity.bases, base.Rooted keys)
    (unrepeated : entity.Unrepeated keys) (name : String) :
    (entity.addBase name).Unrepeated keys ↔
      ∀ id, .linked id ∈ entity.bases → keys[id.toNat]? ≠ some (fold (trimmed name)) := by
  have denoted : (baseNamed name).denoted? keys = some (fold (trimmed name)) :=
    congrArg some (fold_fold _)
  by_cases waiting : baseNamed name ∈ entity.bases
  · rw [show entity.addBase name = entity from if_pos waiting]
    refine iff_of_true unrepeated fun id inside known => ?_
    cases List.inj_on_of_nodup_map unrepeated inside waiting (known.trans denoted.symm)
  · have added : (entity.addBase name).bases = entity.bases ++ [baseNamed name] :=
      congrArg EntityClass.bases (if_neg waiting)
    rw [Unrepeated, added, List.map_append, List.map_singleton, denoted, ← List.concat_eq_append,
      List.nodup_concat, List.mem_map, not_exists]
    constructor
    · rintro ⟨fresh, -⟩ id inside known
      exact fresh (.linked id) ⟨inside, known⟩
    · intro unlinked
      refine ⟨fun base ⟨inside, same⟩ => ?_, unrepeated⟩
      cases rooted base inside with
      | named given =>
        have named : fold (trimmed given) = fold (trimmed name) :=
          (fold_fold _).symm.trans (Option.some.inj same)
        exact waiting (by rwa [named] at inside)
      | linked known => exact unlinked _ inside same

theorem unrepeated_add_iff (rooted : ∀ base ∈ entity.bases, base.Rooted keys)
    (unrepeated : entity.Unrepeated keys) : (entity.add addition).Unrepeated keys ↔
      ∀ name, addition = .base name → ∀ id, .linked id ∈ entity.bases →
        keys[id.toNat]? ≠ some (fold (trimmed name)) := by
  cases addition with
  | base name =>
    refine (unrepeated_addBase_iff rooted unrepeated name).trans ⟨?_, fun none => none name rfl⟩
    rintro none _ ⟨⟩
    exact none
  | keyValue keyValue => exact iff_of_true unrepeated nofun
  | signal direction signal => exact iff_of_true (by cases direction <;> exact unrepeated) nofun
  | helper helper => exact iff_of_true unrepeated nofun

theorem unrepeated_extend_iff (rooted : ∀ base ∈ entity.bases, base.Rooted keys)
    (unrepeated : entity.Unrepeated keys) : (entity.extend additions).Unrepeated keys ↔
      ∀ name, .base name ∈ additions → ∀ id, .linked id ∈ entity.bases →
        keys[id.toNat]? ≠ some (fold (trimmed name)) := by
  induction additions generalizing entity with
  | nil => exact iff_of_true unrepeated nofun
  | cons addition additions ih =>
    have first : (entity.extend (addition :: additions)).Unrepeated keys →
        (entity.add addition).Unrepeated keys := by
      obtain ⟨-, names, bases⟩ := (entity.add addition).extend_keeps additions
      intro whole
      rw [Unrepeated, extend, List.foldl_cons, ← extend, bases, List.map_append] at whole
      exact whole.of_append_left
    have still := rooted_extend rooted [addition]
    constructor
    · intro whole name member id inside
      rcases List.mem_cons.mp member with rfl | later
      · exact (unrepeated_add_iff rooted unrepeated).mp (first whole) name rfl id inside
      · exact (ih still (first whole)).mp whole name later id (linked_add.mpr inside)
    · intro unlinked
      have once : (entity.add addition).Unrepeated keys :=
        (unrepeated_add_iff rooted unrepeated).mpr fun name same =>
          unlinked name (same ▸ List.mem_cons_self)
      exact (ih still once).mpr fun name later id inside =>
        unlinked name (List.mem_cons_of_mem _ later) id (linked_add.mp inside)

namespace Built

theorem rooted (built : entity.Built) : ∀ base ∈ entity.bases, base.Rooted keys := by
  obtain ⟨start, additions, bare, rfl⟩ := built
  exact rooted_extend (by simp [bare]) additions

theorem unrepeated (built : entity.Built) : entity.Unrepeated keys := by
  obtain ⟨start, additions, bare, rfl⟩ := built
  have blank : start.Unrepeated keys := by simp [Unrepeated, bare]
  exact (unrepeated_extend_iff (by simp [bare]) blank).mpr fun _ _ id inside => by
    simp [bare] at inside

theorem unlinked (built : entity.Built) (id : ClassId) : .linked id ∉ entity.bases := by
  obtain ⟨start, additions, bare, rfl⟩ := built
  obtain ⟨-, names, bases⟩ := start.extend_keeps additions
  simp [bases, bare, baseNamed]

end Built

end EntityClass

namespace Database

variable {db : Database} {entity : EntityClass}

/-- No class has two bases that denote the same class. -/
def Unrepeated (db : Database) : Prop :=
  ∀ entity ∈ db.classes.values, entity.Unrepeated db.classes.keys

def Rooted (db : Database) : Prop :=
  ∀ entity ∈ db.classes.values, ∀ base ∈ entity.bases, base.Rooted db.classes.keys

theorem find?_define (db : Database) (entity : EntityClass) :
    (db.define entity).find? entity.name = some entity :=
  OrderedMap.get?_eq_some_iff.mpr (OrderedMap.mem_toList_insert_iff.mpr (Or.inl rfl))

theorem Rooted.define (rooted : db.Rooted) (built : entity.Built) : (db.define entity).Rooted := by
  intro other member base inside
  rcases OrderedMap.mem_values_insert member with rfl | old
  · exact built.rooted base inside
  · exact (rooted other old base inside).mono (keys_prefix_define db entity)

theorem Unrepeated.define (unrepeated : db.Unrepeated) (rooted : db.Rooted)
    (built : entity.Built) : (db.define entity).Unrepeated := by
  intro other member
  rcases OrderedMap.mem_values_insert member with rfl | old
  · exact built.unrepeated
  · have same : other.bases.map (Base.denoted? (db.define entity).classes.keys) =
        other.bases.map (Base.denoted? db.classes.keys) := List.map_congr_left fun base inside =>
      (rooted other old base inside).denoted?_mono (keys_prefix_define db entity)
    rw [EntityClass.Unrepeated, same]
    exact unrepeated other old

section

variable {name : String} {additions : List Addition}

/-- A class that has been extended, and all others as they were. -/
theorem mem_values_extend {other : EntityClass} :
    other ∈ (db.modify name (EntityClass.extend · additions)).classes.values ↔
      ∃ key entity, (key, entity) ∈ db.classes.toList ∧
        other = if key = fold name then entity.extend additions else entity := by
  rw [OrderedMap.values, modify, OrderedMap.toList_modify, List.map_map, List.mem_map]
  constructor
  · rintro ⟨⟨key, entity⟩, member, rfl⟩
    refine ⟨key, entity, member, ?_⟩
    rw [Function.comp_apply]
    split <;> rfl
  · rintro ⟨key, entity, member, rfl⟩
    refine ⟨(key, entity), member, ?_⟩
    rw [Function.comp_apply]
    split <;> rfl

theorem keys_extend : (db.modify name (EntityClass.extend · additions)).classes.keys =
    db.classes.keys := OrderedMap.keys_modify ..

theorem Rooted.extend (rooted : db.Rooted) :
    (db.modify name (EntityClass.extend · additions)).Rooted := by
  intro other member
  obtain ⟨key, entity, entry, rfl⟩ := mem_values_extend.mp member
  have before := rooted entity (OrderedMap.mem_values.mpr ⟨key, entry⟩)
  rw [keys_extend]
  split
  · exact EntityClass.rooted_extend before additions
  · exact before

/-- Extending a class repeats none of its bases exactly if no base is added under the name of a
class that it is linked to. -/
theorem unrepeated_extend_iff (rooted : db.Rooted) (unrepeated : db.Unrepeated) :
    (db.modify name (EntityClass.extend · additions)).Unrepeated ↔
      ∀ entity, db.find? name = some entity → ∀ base, .base base ∈ additions →
        ∀ id, .linked id ∈ entity.bases →
          db.classes.keys[id.toNat]? ≠ some (fold (trimmed base)) := by
  have each : ∀ key entity, (key, entity) ∈ db.classes.toList →
      (∀ base ∈ entity.bases, base.Rooted db.classes.keys) ∧
        entity.Unrepeated db.classes.keys := fun key entity entry =>
    have member := OrderedMap.mem_values.mpr ⟨key, entry⟩
    ⟨rooted entity member, unrepeated entity member⟩
  rw [Unrepeated, keys_extend]
  constructor
  · intro extended entity found
    have entry := OrderedMap.get?_eq_some_iff.mp found
    obtain ⟨rooted, unrepeated⟩ := each _ _ entry
    refine (EntityClass.unrepeated_extend_iff rooted unrepeated).mp ?_
    exact extended _ (mem_values_extend.mpr ⟨_, entity, entry, (if_pos rfl).symm⟩)
  · intro unlinked other member
    obtain ⟨key, entity, entry, rfl⟩ := mem_values_extend.mp member
    obtain ⟨rooted, unrepeated⟩ := each _ _ entry
    split
    · rename_i same
      subst same
      exact (EntityClass.unrepeated_extend_iff rooted unrepeated).mpr
        (unlinked entity (OrderedMap.get?_eq_some_iff.mpr entry))
    · exact unrepeated

end

/-- Linking leaves every class with bases that denote the same classes, slot by slot. -/
theorem denoted?_linkBases (few : db.size ≤ UInt32.size) {after : EntityClass}
    (member : after ∈ db.linkBases.1.classes.values) : ∃ entity ∈ db.classes.values,
      after.bases.map (Base.denoted? db.classes.keys) =
        entity.bases.map (Base.denoted? db.classes.keys) ∧
      ((∀ base ∈ entity.bases, base.Rooted db.classes.keys) →
        ∀ base ∈ after.bases, base.Rooted db.classes.keys) := by
  obtain ⟨key, entry⟩ := OrderedMap.mem_values.mp member
  obtain ⟨entity, before, ⟨bases, links, rfl⟩ | ⟨rfl, -⟩⟩ := exists_of_linkBases entry
  · refine ⟨entity, OrderedMap.mem_values.mpr ⟨key, before⟩,
      Base.map_denoted?_of_links few links, fun rooted base inside => ?_⟩
    obtain ⟨original, there, link⟩ := exists_of_forall₂ links inside
    exact (rooted original there).of_links few link
  · exact ⟨after, OrderedMap.mem_values.mpr ⟨key, before⟩, rfl, id⟩

theorem Rooted.linkBases (rooted : db.Rooted) (few : db.size ≤ UInt32.size) :
    db.linkBases.1.Rooted := by
  intro after member
  obtain ⟨entity, old, -, keeps⟩ := denoted?_linkBases few member
  rw [Database.linkBases, linkFrom_keys]
  exact keeps (rooted entity old)

theorem Unrepeated.linkBases (unrepeated : db.Unrepeated) (few : db.size ≤ UInt32.size) :
    db.linkBases.1.Unrepeated := by
  intro after member
  obtain ⟨entity, old, same, -⟩ := denoted?_linkBases few member
  rw [Database.linkBases, linkFrom_keys, EntityClass.Unrepeated, same]
  exact unrepeated entity old

end Database

namespace Edit

variable {db : Database} {edit : Edit} {edits : List Edit}

/-- Classes are defined as they were put together, without links. -/
def Built (edit : Edit) : Prop := ∀ entity ∈ edit.defined?, entity.Built

/-- A base is added to a stored class under the name of a class that it is linked to. -/
def Repeats (db : Database) : Edit → Prop
  | .extend name additions => ∃ entity, db.find? name = some entity ∧
      ∃ base, .base base ∈ additions ∧ ∃ id, .linked id ∈ entity.bases ∧
        db.classes.keys[id.toNat]? = some (fold (trimmed base))
  | _ => False

theorem keys_prefix_run (db : Database) (edit : Edit) :
    db.classes.keys <+: (run db edit).classes.keys := by
  cases edit with
  | define entity => exact db.keys_prefix_define entity
  | defineWith entity additions =>
    rw [run, Database.keys_extend]
    exact db.keys_prefix_define entity
  | extend name additions =>
    have same := OrderedMap.keys_modify db.classes (fold name) (EntityClass.extend · additions)
    exact same.symm ▸ List.prefix_rfl
  | linkBases => exact (db.linkFrom_keys 0).symm ▸ List.prefix_rfl
  | setMapSize low high => exact List.prefix_rfl
  | beginFile identity =>
    rw [run, Database.beginFile]
    split <;> exact List.prefix_rfl

theorem size_le_size_run (db : Database) (edit : Edit) : db.size ≤ (run db edit).size := by
  have longer := (keys_prefix_run db edit).length_le
  rwa [OrderedMap.length_keys, OrderedMap.length_keys] at longer

theorem rooted_run (rooted : db.Rooted) (built : edit.Built) (few : db.size ≤ UInt32.size) :
    (run db edit).Rooted := by
  cases edit with
  | define entity => exact rooted.define (built entity rfl)
  | defineWith entity additions => exact (rooted.define (built entity rfl)).extend
  | extend name additions => exact rooted.extend
  | linkBases => exact rooted.linkBases few
  | setMapSize low high => exact rooted
  | beginFile identity =>
    rw [run, Database.beginFile]
    split <;> exact rooted

/-- A database without repetitions stays without, unless the edit repeats a base. -/
theorem unrepeated_run_iff (rooted : db.Rooted) (unrepeated : db.Unrepeated) (built : edit.Built)
    (few : db.size ≤ UInt32.size) : (run db edit).Unrepeated ↔ ¬edit.Repeats db := by
  cases edit with
  | define entity => exact iff_of_true (unrepeated.define rooted (built entity rfl)) id
  | defineWith entity additions =>
    refine iff_of_true ?_ id
    have built := built entity rfl
    refine (Database.unrepeated_extend_iff (rooted.define built)
      (unrepeated.define rooted built)).mpr fun stored found _ _ id inside => ?_
    have same : stored = entity := Option.some.inj (found.symm.trans (db.find?_define entity))
    exact absurd (same ▸ inside) (built.unlinked id)
  | extend name additions =>
    rw [run, Database.unrepeated_extend_iff rooted unrepeated, Repeats]
    simp only [not_exists, not_and, ne_eq]
  | linkBases => exact iff_of_true (unrepeated.linkBases few) id
  | setMapSize low high => exact iff_of_true unrepeated id
  | beginFile identity =>
    refine iff_of_true ?_ id
    rw [run, Database.beginFile]
    split <;> exact unrepeated

theorem size_le_size_runAll {earlier : List Edit} (prior : earlier <+: edits) :
    (runAll earlier).size ≤ (runAll edits).size := by
  obtain ⟨later, rfl⟩ := prior
  induction later using List.reverseRecOn with
  | nil => rw [List.append_nil]
  | append_singleton later edit ih =>
    rw [← List.append_assoc, runAll_concat]
    exact ih.trans (size_le_size_run _ _)

theorem rooted_runAll (built : ∀ edit ∈ edits, edit.Built)
    (few : (runAll edits).size ≤ UInt32.size) : (runAll edits).Rooted := by
  induction edits using List.reverseRecOn with
  | nil => exact nofun
  | append_singleton edits edit ih =>
    rw [List.forall_mem_append] at built
    rw [runAll_concat] at few ⊢
    have fewer := Nat.le_trans (size_le_size_run _ _) few
    exact rooted_run (ih built.1 fewer) (built.2 edit List.mem_cons_self) fewer

/-- No base is ever repeated exactly if no edit adds one under the name of a class that has been
linked. -/
theorem unrepeated_runAll_iff (built : ∀ edit ∈ edits, edit.Built)
    (few : (runAll edits).size ≤ UInt32.size) :
    (∀ earlier, earlier <+: edits → (runAll earlier).Unrepeated) ↔
      ∀ earlier edit, earlier ++ [edit] <+: edits → ¬edit.Repeats (runAll earlier) := by
  have step : ∀ earlier edit, earlier ++ [edit] <+: edits → (runAll earlier).Unrepeated →
      ((runAll (earlier ++ [edit])).Unrepeated ↔ ¬edit.Repeats (runAll earlier)) := by
    intro earlier edit prior unrepeated
    have before : earlier <+: edits := (List.prefix_append ..).trans prior
    have fewer := Nat.le_trans (size_le_size_runAll before) few
    have rooted := rooted_runAll (fun other member => built other (before.subset member)) fewer
    rw [runAll_concat]
    exact unrepeated_run_iff rooted unrepeated
      (built edit (prior.subset (List.mem_append_right _ List.mem_cons_self))) fewer
  constructor
  · intro unrepeated earlier edit prior
    exact (step earlier edit prior (unrepeated _ ((List.prefix_append ..).trans prior))).mp
      (unrepeated _ prior)
  · intro fresh earlier
    induction earlier using List.reverseRecOn with
    | nil => exact fun _ => nofun
    | append_singleton earlier edit ih =>
      intro prior
      exact (step earlier edit prior (ih ((List.prefix_append ..).trans prior))).mpr
        (fresh earlier edit prior)

end Edit
end EntitySchema
