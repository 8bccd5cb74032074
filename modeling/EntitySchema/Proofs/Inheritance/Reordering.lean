import EntitySchema.Proofs.Inheritance.Merging
import EntitySchema.Proofs.Linking

/-! Databases that hold the same classes under different numbers. A walk along links from a
class is followed step by step by one in the other database, so both have the same ancestry
but for the numbers in it. Linking makes such databases of the same definitions, in
whatever order they stand. -/
namespace EntitySchema

variable {a b : Database} {R : ClassId → ClassId → Prop}

/-- Two bases that wait under one name, or are linked to classes with numbers that
correspond. -/
inductive Base.Renumbered (R : ClassId → ClassId → Prop) : Base → Base → Prop
  | named (name : String) : Renumbered R (.named name) (.named name)
  | linked {id other : ClassId} (same : R id other) : Renumbered R (.linked id) (.linked other)

/-- Two classes that differ at most in the numbers of their bases. -/
def EntityClass.Renumbered (R : ClassId → ClassId → Prop) (entity other : EntityClass) : Prop :=
  ∃ bases, other = { entity with bases } ∧ List.Forall₂ (Base.Renumbered R) entity.bases bases

/-- What one row of waiting bases is linked to in two databases. -/
theorem Base.renumbered_of_links {idOf? otherIdOf? : String → Option ClassId}
    (agree : ∀ name id other, idOf? name = some id → otherIdOf? name = some other → R id other)
    {bases linked relinked : List Base} (waiting : ∀ base ∈ bases, ∃ name, base = .named name)
    (links : List.Forall₂ (Base.Links idOf?) bases linked)
    (others : List.Forall₂ (Base.Links otherIdOf?) bases relinked) :
    List.Forall₂ (Base.Renumbered R) linked relinked := by
  induction links generalizing relinked with
  | nil =>
    cases others
    exact .nil
  | cons first _ ih =>
    obtain ⟨name, rfl⟩ := waiting _ List.mem_cons_self
    obtain ⟨id, known, rfl⟩ := Base.links_named_iff.mp first
    cases others with
    | cons again rest =>
      obtain ⟨other, also, rfl⟩ := Base.links_named_iff.mp again
      exact .cons (.linked (agree name id other known also))
        (ih (fun base inside => waiting base (List.mem_cons_of_mem _ inside)) rest)

theorem EntityClass.Renumbered.links {entity other : EntityClass}
    (same : entity.Renumbered R other) : List.Forall₂ R entity.links other.links := by
  obtain ⟨bases, rfl, row⟩ := same
  refine List.rel_filterMap ?_ row
  intro before after base
  cases base with
  | named name => exact .none
  | linked same => exact .some same

namespace Database

/-- Numbers that correspond one to one stand for classes that are the same but for such
numbers. -/
structure Renumbered (R : ClassId → ClassId → Prop) (a b : Database) : Prop where
  unique : Relator.BiUnique R
  classes : ∀ id other, R id other → ∃ entity definition, a.classAt? id = some entity ∧
    b.classAt? other = some definition ∧ entity.Renumbered R definition

/-- The induction follows the walk. What has been seen corresponds as well, so the other walk
enters a class where the first does. -/
theorem Walks.renumbered (same : Renumbered R a b)
    {seen waiting after seen' waiting' : List ClassId}
    (walk : a.Walks seen waiting after) (met : List.Forall₂ R seen seen')
    (ahead : List.Forall₂ R waiting waiting') :
    ∃ after', b.Walks seen' waiting' after' ∧ List.Forall₂ R after after' := by
  induction walk generalizing seen' waiting' with
  | done =>
    cases ahead
    exact ⟨seen', .done, met⟩
  | @missing id seen rest after absent _ ih =>
    cases ahead with
    | cons first _ =>
      obtain ⟨entity, definition, found, -, -⟩ := same.classes _ _ first
      cases absent.symm.trans found
  | @known id seen rest after old _ ih =>
    cases ahead with
    | cons first others =>
      obtain ⟨after', walk, row⟩ := ih met others
      exact ⟨after', .known ((List.rel_mem same.unique first met).mp old) walk, row⟩
  | @entered id entity seen middle rest after fresh found _ _ inside last =>
    cases ahead with
    | @cons _ other _ _ first others =>
      obtain ⟨_, definition, here, there, alike⟩ := same.classes _ _ first
      cases found.symm.trans here
      have unseen : other ∉ seen' := fun old =>
        fresh ((List.rel_mem same.unique first met).mpr old)
      have entered : List.Forall₂ R (seen ++ [id]) (seen' ++ [other]) :=
        List.rel_append met (.cons first .nil)
      obtain ⟨middle', within, row⟩ := inside entered alike.links
      obtain ⟨after', beyond, row⟩ := last row others
      exact ⟨after', .entered unseen there within beyond, row⟩

namespace Renumbered

variable {id other : ClassId}

theorem lineage (same : Renumbered R a b) (here : R id other) :
    List.Forall₂ R (a.lineage id) (b.lineage other) := by
  obtain ⟨after, walk, row⟩ := (a.walks_lineage id).renumbered same .nil (.cons here .nil)
  rwa [← walk.eq_lineage]

/-- What is read off the classes of an ancestry, their bases apart, is the same in both. -/
theorem map_ancestry {α : Type} (same : Renumbered R a b) (here : R id other)
    {read : EntityClass → α} (blind : ∀ entity bases, read { entity with bases } = read entity) :
    (a.ancestry id).map read = (b.ancestry other).map read := by
  have row := same.lineage here
  rw [ancestry, ancestry]
  generalize a.lineage id = ids, b.lineage other = others at row
  induction row with
  | nil => rfl
  | cons first _ ih =>
    obtain ⟨entity, definition, found, defined, bases, rfl, -⟩ := same.classes _ _ first
    rw [List.filterMap_cons_some found, List.filterMap_cons_some defined, List.map_cons,
      List.map_cons, ih, blind entity bases]

theorem isA (same : Renumbered R a b) (here : R id other) (name : String) :
    a.isA id name = b.isA other name := by
  have names : (a.ancestry id).map (fold ·.name) = (b.ancestry other).map (fold ·.name) :=
    same.map_ancestry here fun _ _ => rfl
  have any : ∀ db : Database, ∀ id, db.isA id name =
      ((db.ancestry id).map (fold ·.name)).any (· == fold name) := by
    intro db id
    rw [Database.isA, List.any_map]
    rfl
  rw [any, any, names]

theorem baseNames (same : Renumbered R a b) {entity definition : EntityClass}
    (alike : entity.Renumbered R definition) : a.baseNames entity = b.baseNames definition := by
  obtain ⟨bases, rfl, row⟩ := alike
  rw [Database.baseNames, Database.baseNames]
  generalize entity.bases = before at row
  induction row with
  | nil => rfl
  | cons first _ ih =>
    rw [List.filterMap_cons, List.filterMap_cons, ih]
    cases first with
    | named name => rfl
    | linked here =>
      obtain ⟨definition, _, found, defined, _, rfl, -⟩ := same.classes _ _ here
      simp only [found, defined, Option.map_some]

end Renumbered

/-- Two numbers are those under which a class of one name is stored. -/
def SameKey (a b : Database) (id other : ClassId) : Prop :=
  ∃ key, a.classes.keys[id.toNat]? = some key ∧ b.classes.keys[other.toNat]? = some key

theorem sameKey_unique (a b : Database) : Relator.BiUnique (SameKey a b) := by
  have position : ∀ (db : Database) (id other : ClassId) (key : String),
      db.classes.keys[id.toNat]? = some key → db.classes.keys[other.toNat]? = some key →
        id = other := by
    intro db id other key first second
    rw [← OrderedMap.position?_eq_some_iff] at first second
    exact UInt32.toNat_inj.mp (Option.some.inj (first.symm.trans second))
  constructor
  · rintro id other shared ⟨key, here, there⟩ ⟨again, beside, also⟩
    cases there.symm.trans also
    exact position a id other key here beside
  · rintro shared id other ⟨key, here, there⟩ ⟨again, beside, also⟩
    cases here.symm.trans beside
    exact position b id other key there also

/-- The classes of a list, defined one after the other. -/
def ofClasses (definitions : List EntityClass) : Database := definitions.foldl define ∅

section

variable {definitions reordered : List EntityClass}

theorem toList_ofClasses (distinct : (definitions.map (fold ·.name)).Nodup) :
    (ofClasses definitions).classes.toList =
      definitions.map fun entity => (fold entity.name, entity) := by
  have built : (ofClasses definitions).classes =
      (definitions.map fun entity => (fold entity.name, entity)).foldl
        (fun map entry => map.insert entry.1 entry.2) ∅ := by
    rw [ofClasses, foldl_define, List.foldl_map]
    rfl
  rw [built, OrderedMap.toList_foldl_insert]
  · rfl
  · rw [List.map_map]
    exact distinct

theorem keys_ofClasses (distinct : (definitions.map (fold ·.name)).Nodup) :
    (ofClasses definitions).classes.keys = definitions.map (fold ·.name) := by
  rw [OrderedMap.keys, toList_ofClasses distinct, List.map_map]
  rfl

theorem values_ofClasses (distinct : (definitions.map (fold ·.name)).Nodup) :
    (ofClasses definitions).classes.values = definitions := by
  rw [OrderedMap.values, toList_ofClasses distinct, List.map_map]
  exact List.map_id _

theorem size_ofClasses (distinct : (definitions.map (fold ·.name)).Nodup) :
    (ofClasses definitions).size = definitions.length := by
  rw [size, ← OrderedMap.length_keys, keys_ofClasses distinct, List.length_map]

/-- Where a class is stored after linking, its definition was linked. -/
theorem exists_definition (distinct : (definitions.map (fold ·.name)).Nodup)
    (clear : (ofClasses definitions).linkBases.2 = none) {i : Nat} {key : String}
    (stored : (ofClasses definitions).linkBases.1.classes.keys[i]? = some key) :
    ∃ entity linked, entity ∈ definitions ∧ fold entity.name = key ∧
      (ofClasses definitions).linkBases.1.classes.entryAt? i = some (key, linked) ∧
      entity.linkBases (ofClasses definitions).idOf? = .ok linked := by
  obtain ⟨linked, found⟩ := OrderedMap.exists_entryAt?_of_keys stored
  obtain ⟨entity, before, succeeded⟩ := exists_linked clear found
  have member := OrderedMap.mem_toList_of_entryAt? before
  rw [toList_ofClasses distinct] at member
  obtain ⟨_, inside, same⟩ := List.mem_map.mp member
  cases same
  exact ⟨entity, linked, inside, rfl, found, succeeded⟩

theorem exists_id_of_mem (distinct : (definitions.map (fold ·.name)).Nodup)
    (few : definitions.length ≤ UInt32.size) {entity : EntityClass}
    (inside : entity ∈ definitions) :
    ∃ id, (ofClasses definitions).linkBases.1.idOf? entity.name = some id ∧
      (ofClasses definitions).linkBases.1.classes.keys[id.toNat]? = some (fold entity.name) := by
  have known : ((ofClasses definitions).linkBases.1.idOf? entity.name).isSome := by
    rw [isSome_idOf?, linkBases, linkFrom_keys, keys_ofClasses distinct]
    exact List.mem_map_of_mem inside
  obtain ⟨id, found⟩ := Option.isSome_iff_exists.mp known
  refine ⟨id, found, keys_of_idOf? ?_ found⟩
  rwa [linkBases_size, size_ofClasses distinct]

/-- The same definitions, linked in two orders, differ in their numbers. -/
theorem renumbered_linkBases (distinct : (definitions.map (fold ·.name)).Nodup)
    (waiting : ∀ entity ∈ definitions, entity.links = []) (same : reordered.Perm definitions)
    (few : definitions.length ≤ UInt32.size)
    (clear : (ofClasses definitions).linkBases.2 = none)
    (alsoClear : (ofClasses reordered).linkBases.2 = none) :
    Renumbered (SameKey (ofClasses definitions).linkBases.1 (ofClasses reordered).linkBases.1)
      (ofClasses definitions).linkBases.1 (ofClasses reordered).linkBases.1 where
  unique := sameKey_unique _ _
  classes := by
    rintro id other ⟨key, here, there⟩
    have alsoDistinct : (reordered.map (fold ·.name)).Nodup :=
      (same.map _).nodup_iff.mpr distinct
    obtain ⟨entity, linked, inside, stored, found, bases⟩ := exists_definition distinct clear here
    obtain ⟨definition, renumbered, also, again, defined, others⟩ :=
      exists_definition alsoDistinct alsoClear there
    obtain rfl : definition = entity :=
      List.inj_on_of_nodup_map distinct (same.mem_iff.mp also) inside (again.trans stored.symm)
    obtain ⟨firstRow, firstLinks, rfl⟩ := EntityClass.linkBases_eq_ok_iff.mp bases
    obtain ⟨secondRow, secondLinks, rfl⟩ := EntityClass.linkBases_eq_ok_iff.mp others
    refine ⟨_, _, congrArg (Option.map Prod.snd) found, congrArg (Option.map Prod.snd) defined,
      secondRow, rfl, Base.renumbered_of_links ?_ ?_ firstLinks secondLinks⟩
    · intro name id other known known'
      refine ⟨fold name, ?_, ?_⟩
      · rw [linkBases, linkFrom_keys]
        exact keys_of_idOf? (by rwa [size_ofClasses distinct]) known
      · rw [linkBases, linkFrom_keys]
        exact keys_of_idOf? (by rwa [size_ofClasses alsoDistinct, same.length_eq]) known'
    · intro base member
      rw [EntityClass.bases_eq_of_unlinked (waiting definition inside)] at member
      obtain ⟨name, -, rfl⟩ := List.mem_map.mp member
      exact ⟨name, rfl⟩

theorem clear_ofClasses_iff (distinct : (definitions.map (fold ·.name)).Nodup) :
    (ofClasses definitions).linkBases.2 = none ↔ ∀ entity ∈ definitions, ∀ name ∈ entity.names,
      fold name ∈ definitions.map (fold ·.name) := by
  rw [linkBases_clear_iff, values_ofClasses distinct, keys_ofClasses distinct]

/-- A class of one database and a class of another answer all questions alike, but for
their numbers. -/
structure Indistinct (a : Database) (id : ClassId) (b : Database) (other : ClassId) : Prop where
  baseNames : ∃ entity definition,
    a.classAt? id = some entity ∧ b.classAt? other = some definition ∧
    a.baseNames entity = b.baseNames definition
  isA : ∀ name, a.isA id name = b.isA other name
  keyValues : (a.keyValuesOf id).entries = (b.keyValuesOf other).entries
  inputs : (a.inputsOf id).entries = (b.inputsOf other).entries
  outputs : (a.outputsOf id).entries = (b.outputsOf other).entries

theorem Renumbered.indistinct {R : ClassId → ClassId → Prop} (same : Renumbered R a b)
    {id other : ClassId} (here : R id other) : Indistinct a id b other where
  baseNames := by
    obtain ⟨entity, definition, found, defined, alike⟩ := same.classes id other here
    exact ⟨entity, definition, found, defined, same.baseNames alike⟩
  isA := same.isA here
  keyValues := by
    rw [keyValuesOf, keyValuesOf, same.map_ancestry here fun _ _ => rfl]
  inputs := by
    rw [inputsOf, inputsOf, same.map_ancestry here fun _ _ => rfl]
  outputs := by
    rw [outputsOf, outputsOf, same.map_ancestry here fun _ _ => rfl]

/-- In whatever order classes of different names are defined, their bases can be linked or
cannot; and once they are linked, every class is found in both databases and answers all
questions alike. -/
theorem linkBases_perm (distinct : (definitions.map (fold ·.name)).Nodup)
    (waiting : ∀ entity ∈ definitions, entity.links = []) (same : reordered.Perm definitions) :
    ((ofClasses definitions).linkBases.2 = none ↔ (ofClasses reordered).linkBases.2 = none) ∧
      (definitions.length ≤ UInt32.size → (ofClasses definitions).linkBases.2 = none →
        ∀ entity ∈ definitions, ∃ id other,
          (ofClasses definitions).linkBases.1.idOf? entity.name = some id ∧
          (ofClasses reordered).linkBases.1.idOf? entity.name = some other ∧
          Indistinct (ofClasses definitions).linkBases.1 id (ofClasses reordered).linkBases.1
            other) := by
  have alsoDistinct : (reordered.map (fold ·.name)).Nodup := (same.map _).nodup_iff.mpr distinct
  have both : (ofClasses definitions).linkBases.2 = none ↔
      (ofClasses reordered).linkBases.2 = none := by
    simp only [clear_ofClasses_iff distinct, clear_ofClasses_iff alsoDistinct, same.mem_iff,
      (same.map _).mem_iff]
  refine ⟨both, fun few clear entity inside => ?_⟩
  have renumbered := renumbered_linkBases distinct waiting same few clear (both.mp clear)
  obtain ⟨id, known, stored⟩ := exists_id_of_mem distinct few inside
  obtain ⟨other, also, again⟩ := exists_id_of_mem alsoDistinct (by rwa [same.length_eq])
    (same.mem_iff.mpr inside)
  exact ⟨id, other, known, also, renumbered.indistinct ⟨_, stored, again⟩⟩

end

namespace Entwined

def lamp : EntityClass :=
  { EntityClass.plain .point "Lamp" with
    bases := [.named "Light", .named "lamp"], keyValues := Mutual.only (Mutual.health "100") }

def light : EntityClass :=
  { EntityClass.plain .base "Light" with
    bases := [.named "lamp"], keyValues := Mutual.only (Mutual.health "10") }

theorem distinct : ([lamp, light].map (fold ·.name)).Nodup := by decide

theorem clear : (ofClasses [lamp, light]).linkBases.2 = none := by
  rw [clear_ofClasses_iff distinct]
  decide

end Entwined

/-- Two classes that inherit from each other, one of them from itself as well: whichever
comes first, they are linked and answer alike. -/
theorem linkBases_perm_entwined :
    (ofClasses [Entwined.light, Entwined.lamp]).linkBases.2 = none ∧ ∃ id other,
      (ofClasses [Entwined.lamp, Entwined.light]).linkBases.1.idOf? "Lamp" = some id ∧
      (ofClasses [Entwined.light, Entwined.lamp]).linkBases.1.idOf? "Lamp" = some other ∧
      Indistinct (ofClasses [Entwined.lamp, Entwined.light]).linkBases.1 id
        (ofClasses [Entwined.light, Entwined.lamp]).linkBases.1 other := by
  have waiting : ∀ entity ∈ [Entwined.lamp, Entwined.light], entity.links = [] := by
    simp [Entwined.lamp, Entwined.light, EntityClass.links]
  obtain ⟨both, alike⟩ := linkBases_perm Entwined.distinct waiting
    (List.Perm.swap Entwined.lamp Entwined.light [])
  exact ⟨both.mp Entwined.clear,
    alike (by decide) Entwined.clear Entwined.lamp List.mem_cons_self⟩

end Database
end EntitySchema
