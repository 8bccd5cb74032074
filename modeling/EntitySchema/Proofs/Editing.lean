import EntitySchema.Proofs.Linking

/-! Databases that are edited for as long as they live. Classes are defined, redefined,
extended and linked in any order. Their numbers are those of the order in which their
names first came up, and never change; a link leads for good to the class of the name that
was linked. -/
namespace EntitySchema

/-- What can be added to a class. -/
inductive Addition where
  | base (name : String)
  | keyValue (keyValue : KeyValue)
  | signal (direction : Direction) (signal : Signal)
  | helper (helper : Helper)

namespace EntityClass

def add (entity : EntityClass) : Addition → EntityClass
  | .base name => entity.addBase name
  | .keyValue keyValue => entity.addKeyValue keyValue
  | .signal direction signal => entity.addSignal direction signal
  | .helper helper => entity.addHelper helper

def extend (entity : EntityClass) (additions : List Addition) : EntityClass :=
  additions.foldl add entity

/-- An addition keeps the name and the bases; a base that it adds waits to be linked. -/
theorem add_keeps (entity : EntityClass) (addition : Addition) :
    (entity.add addition).name = entity.name ∧
      ∃ names : List String, (entity.add addition).bases = entity.bases ++ names.map baseNamed := by
  cases addition with
  | base name =>
    rw [add, addBase]
    split
    · exact ⟨rfl, [], (List.append_nil _).symm⟩
    · exact ⟨rfl, [name], rfl⟩
  | keyValue keyValue => exact ⟨rfl, [], (List.append_nil _).symm⟩
  | signal direction signal => cases direction <;> exact ⟨rfl, [], (List.append_nil _).symm⟩
  | helper helper => exact ⟨rfl, [], (List.append_nil _).symm⟩

theorem extend_keeps (entity : EntityClass) (additions : List Addition) :
    (entity.extend additions).name = entity.name ∧
      ∃ names : List String,
        (entity.extend additions).bases = entity.bases ++ names.map baseNamed := by
  induction additions generalizing entity with
  | nil => exact ⟨rfl, [], (List.append_nil _).symm⟩
  | cons addition additions ih =>
    obtain ⟨name, names, bases⟩ := entity.add_keeps addition
    obtain ⟨again, more, extended⟩ := ih (entity.add addition)
    refine ⟨again.trans name, names ++ more, ?_⟩
    rw [bases, List.append_assoc, ← List.map_append] at extended
    exact extended

theorem linked_of_extend {entity : EntityClass} {additions : List Addition} {j : Nat} {id : ClassId}
    (slot : (entity.extend additions).bases[j]? = some (.linked id)) :
    entity.bases[j]? = some (.linked id) := by
  obtain ⟨-, names, bases⟩ := entity.extend_keeps additions
  rw [bases, List.getElem?_append] at slot
  split at slot
  · exact slot
  · have added := List.mem_of_getElem? slot
    simp [baseNamed] at added

end EntityClass

/-- An edit of a database. -/
inductive Edit where
  | define (entity : EntityClass)
  /-- Defines a class and goes on with the class that has been stored. -/
  | defineWith (entity : EntityClass) (additions : List Addition)
  | extend (name : String) (additions : List Addition)
  | linkBases
  | setMapSize (low high : Int64)
  | beginFile (identity : String)

namespace Edit

/-- The class that an edit defines. -/
def defined? : Edit → Option EntityClass
  | .define entity | .defineWith entity _ => some entity
  | .extend .. | .linkBases | .setMapSize .. | .beginFile _ => none

/-- The database that an edit leaves, whether it could be done or not. -/
def run (db : Database) : Edit → Database
  | .define entity => db.define entity
  | .defineWith entity additions =>
    (db.define entity).modify entity.name (EntityClass.extend · additions)
  | .extend name additions => db.modify name (EntityClass.extend · additions)
  | .linkBases => db.linkBases.1
  | .setMapSize low high => db.setMapSize low high
  | .beginFile identity => db.beginFile identity

/-- The database after a row of edits. -/
def runAll (edits : List Edit) : Database := edits.foldl run ∅

theorem runAll_append (edits more : List Edit) :
    runAll (edits ++ more) = more.foldl run (runAll edits) := List.foldl_append ..

theorem runAll_concat (edits : List Edit) (edit : Edit) :
    runAll (edits ++ [edit]) = run (runAll edits) edit := runAll_append ..

end Edit

namespace Database

variable {db : Database} {name : String} {additions : List Addition} {entity : EntityClass}

/-- The base at place `j` of the class at position `i`. -/
def baseAt? (db : Database) (i j : Nat) : Option Base :=
  (db.classes.entryAt? i).bind fun entry => entry.2.bases[j]?

theorem keys_define (db : Database) (entity : EntityClass) :
    (db.define entity).classes.keys =
      if fold entity.name ∈ db.classes.keys then db.classes.keys
      else db.classes.keys ++ [fold entity.name] := OrderedMap.keys_insert

theorem keys_prefix_define (db : Database) (entity : EntityClass) :
    db.classes.keys <+: (db.define entity).classes.keys := by
  rw [keys_define]
  split
  · exact List.prefix_rfl
  · exact List.prefix_append ..

theorem keyed_extend (keyed : db.classes.KeyedBy EntityClass.name) (name : String)
    (additions : List Addition) :
    (db.modify name (EntityClass.extend · additions)).classes.KeyedBy EntityClass.name := by
  intro entry member
  rw [modify, OrderedMap.toList_modify] at member
  obtain ⟨before, inside, rfl⟩ := List.mem_map.mp member
  split
  · rename_i same
    rw [(EntityClass.extend_keeps before.2 additions).1, ← same]
    exact keyed before inside
  · exact keyed before inside

theorem keyed_linkBases (keyed : db.classes.KeyedBy EntityClass.name) :
    db.linkBases.1.classes.KeyedBy EntityClass.name := by
  rintro ⟨key, after⟩ member
  obtain ⟨entity, before, ⟨bases, -, rfl⟩ | ⟨rfl, -⟩⟩ := exists_of_linkBases member
  · exact keyed (key, entity) before
  · exact keyed (key, after) before

theorem baseAt?_of_define {i j : Nat} {id : ClassId} (waiting : entity.links = [])
    (slot : (db.define entity).baseAt? i j = some (.linked id)) :
    db.baseAt? i j = some (.linked id) := by
  obtain ⟨entry, found, linked⟩ := Option.bind_eq_some_iff.mp slot
  rcases OrderedMap.entryAt?_insert found with rfl | old
  · have member := EntityClass.mem_links.mpr (List.mem_of_getElem? linked)
    simp [waiting] at member
  · rw [baseAt?, old]
    exact linked

theorem baseAt?_of_extend {i j : Nat} {id : ClassId}
    (slot : (db.modify name (EntityClass.extend · additions)).baseAt? i j = some (.linked id)) :
    db.baseAt? i j = some (.linked id) := by
  obtain ⟨entry, found, linked⟩ := Option.bind_eq_some_iff.mp slot
  rw [modify, OrderedMap.entryAt?_eq, OrderedMap.toList_modify, List.getElem?_map,
    ← OrderedMap.entryAt?_eq] at found
  obtain ⟨before, old, rfl⟩ := Option.map_eq_some_iff.mp found
  rw [baseAt?, old, Option.bind_some]
  split at linked
  · exact EntityClass.linked_of_extend linked
  · exact linked

/-- What has become a link by linking was one before, or is the number of the class whose
name waited there. -/
theorem baseAt?_of_linkBases {i j : Nat} {id : ClassId}
    (slot : db.linkBases.1.baseAt? i j = some (.linked id)) :
    db.baseAt? i j = some (.linked id) ∨
      ∃ name, db.baseAt? i j = some (.named name) ∧ db.idOf? name = some id := by
  obtain ⟨⟨key, entity⟩, found, linked⟩ := Option.bind_eq_some_iff.mp slot
  obtain ⟨original, before, succeeded | ⟨rfl, -⟩⟩ := exists_original found
  · obtain ⟨bases, links, rfl⟩ := EntityClass.linkBases_eq_ok_iff.mp succeeded
    rw [baseAt?, before, Option.bind_some]
    obtain ⟨base, there, link⟩ := exists_getElem?_of_forall₂ links linked
    cases link with
    | linked => exact Or.inl there
    | named known => exact Or.inr ⟨_, there, known⟩
  · left
    rw [baseAt?, before]
    exact linked

theorem exists_classAt? (keyed : db.classes.KeyedBy EntityClass.name)
    (few : db.size ≤ UInt32.size) {id : ClassId} (known : db.idOf? name = some id) :
    ∃ entity, db.classAt? id = some entity ∧ fold entity.name = fold name := by
  obtain ⟨entity, found⟩ := OrderedMap.exists_entryAt?_of_keys (keys_of_idOf? few known)
  refine ⟨entity, congrArg (Option.map Prod.snd) found, ?_⟩
  exact (keyed _ (OrderedMap.mem_toList_of_entryAt? found)).symm

theorem lt_size_of_idOf? {id : ClassId} (known : db.idOf? name = some id) : id.toNat < db.size := by
  obtain ⟨i, found, rfl⟩ := Option.map_eq_some_iff.mp known
  exact Nat.lt_of_le_of_lt (Nat.mod_le i _) (OrderedMap.lt_size_of_position? found)

end Database

namespace Edit

variable {edits earlier later : List Edit} {name : String} {id : ClassId} {i j : Nat}

/-- The folded names of the classes that edits define, in order and as often. -/
def definedNames (edits : List Edit) : List String :=
  edits.filterMap fun edit => edit.defined?.map (fold ·.name)

/-- Classes are stored in the order in which their names first came up. -/
theorem keys_runAll (edits : List Edit) :
    (runAll edits).classes.keys = (definedNames edits).eraseDups := by
  induction edits using List.reverseRecOn with
  | nil => rfl
  | append_singleton edits edit ih =>
    have defines : ∀ entity, edit.defined? = some entity →
        ((runAll edits).define entity).classes.keys =
          (definedNames (edits ++ [edit])).eraseDups := by
      intro entity same
      rw [definedNames, List.filterMap_append, ← definedNames, List.eraseDups_append,
        Database.keys_define, ih]
      by_cases known : fold entity.name ∈ definedNames edits
      · simp [same, known, List.removeAll]
      · simp [same, known, List.removeAll, List.eraseDups_cons]
    have stays : edit.defined? = none →
        (runAll edits).classes.keys = (definedNames (edits ++ [edit])).eraseDups := by
      intro none
      simp [definedNames, none, ih]
    rw [runAll_concat]
    cases edit with
    | define entity => exact defines entity rfl
    | defineWith entity additions => exact (OrderedMap.keys_modify ..).trans (defines entity rfl)
    | extend name additions => exact (OrderedMap.keys_modify ..).trans (stays rfl)
    | linkBases => exact (Database.linkFrom_keys _ 0).trans (stays rfl)
    | setMapSize low high => exact stays rfl
    | beginFile identity =>
      rw [run, Database.beginFile]
      split <;> exact stays rfl

theorem keyed_runAll (edits : List Edit) : (runAll edits).classes.KeyedBy EntityClass.name := by
  induction edits using List.reverseRecOn with
  | nil => exact .empty
  | append_singleton edits edit ih =>
    rw [runAll_concat]
    cases edit with
    | define entity => exact ih.insert entity
    | defineWith entity additions => exact Database.keyed_extend (ih.insert entity) _ _
    | extend name additions => exact Database.keyed_extend ih _ _
    | linkBases => exact Database.keyed_linkBases ih
    | setMapSize low high => exact ih
    | beginFile identity =>
      rw [run, Database.beginFile]
      split <;> exact ih

/-- Whatever is done later, a name leads to the number that it leads to now. -/
theorem idOf?_append (known : (runAll earlier).idOf? name = some id) (later : List Edit) :
    (runAll (earlier ++ later)).idOf? name = some id := by
  obtain ⟨i, found, rfl⟩ := Option.map_eq_some_iff.mp known
  rw [OrderedMap.position?_eq_some_iff, keys_runAll] at found
  refine Option.map_eq_some_iff.mpr ⟨i, ?_, rfl⟩
  rw [OrderedMap.position?_eq_some_iff, keys_runAll, definedNames, List.filterMap_append,
    List.eraseDups_append, ← definedNames]
  exact (List.getElem?_append_left (List.getElem?_eq_some_iff.mp found).1).trans found

/-- Definitions come with bases that all wait to be linked. -/
def Waiting (edit : Edit) : Prop := ∀ entity ∈ edit.defined?, entity.links = []

/-- Links are only made by linking. -/
theorem baseAt?_of_run {db : Database} {edit : Edit} (waiting : edit.Waiting)
    (slot : (run db edit).baseAt? i j = some (.linked id)) :
    db.baseAt? i j = some (.linked id) ∨
      edit = .linkBases ∧
        ∃ name, db.baseAt? i j = some (.named name) ∧ db.idOf? name = some id := by
  cases edit with
  | define entity => exact Or.inl (Database.baseAt?_of_define (waiting entity rfl) slot)
  | defineWith entity additions =>
    have stored := Database.baseAt?_of_extend slot
    exact Or.inl (Database.baseAt?_of_define (waiting entity rfl) stored)
  | extend name additions => exact Or.inl (Database.baseAt?_of_extend slot)
  | linkBases => exact (Database.baseAt?_of_linkBases slot).imp_right fun named => ⟨rfl, named⟩
  | setMapSize low high => exact Or.inl slot
  | beginFile identity =>
    rw [run, Database.beginFile] at slot
    split at slot <;> exact Or.inl slot

/-- A link goes back to the linking that made it of a name, and has been there ever since. -/
theorem exists_linking (waiting : ∀ edit ∈ edits, edit.Waiting)
    (slot : (runAll edits).baseAt? i j = some (.linked id)) :
    ∃ earlier later name, edits = earlier ++ .linkBases :: later ∧
      (runAll earlier).baseAt? i j = some (.named name) ∧
      (runAll earlier).idOf? name = some id ∧ ∀ middle, middle <+: later →
        (runAll (earlier ++ .linkBases :: middle)).baseAt? i j = some (.linked id) := by
  induction edits using List.reverseRecOn with
  | nil => cases slot
  | append_singleton edits edit ih =>
    rw [List.forall_mem_append] at waiting
    have made := slot
    rw [runAll_concat] at made
    -- either the last edit has made the link, or it has kept the one that was there
    rcases baseAt?_of_run (waiting.2 edit List.mem_cons_self) made with
      before | ⟨rfl, name, named, known⟩
    · obtain ⟨earlier, later, name, rfl, named, known, lasting⟩ := ih waiting.1 before
      refine ⟨earlier, later ++ [edit], name, by simp, named, known, fun middle prior => ?_⟩
      rcases List.prefix_concat_iff.mp prior with rfl | prior
      · simpa using slot
      · exact lasting middle prior
    · refine ⟨edits, [], name, rfl, named, known, fun middle prior => ?_⟩
      rw [List.prefix_nil.mp prior]
      exact slot

/-- What lasts in a database through a row of edits. Numbers are given in the order in which
names first come up and are found under the same name ever after. A link leads to a class
of the name that waited in its place when it was made, although that class may have been
defined anew. Two classes have different numbers as long as there are numbers enough. -/
structure Lasting (edits : List Edit) : Prop where
  keys : (runAll edits).classes.keys = (definedNames edits).eraseDups
  numbered : ∀ name, (runAll edits).idOf? name =
    ((definedNames edits).eraseDups.idxOf? (fold name)).map Nat.toUInt32
  known : ∀ earlier edit later entity, edits = earlier ++ edit :: later →
    edit.defined? = some entity → ((runAll (earlier ++ [edit])).idOf? entity.name).isSome
  kept : ∀ earlier later name id, edits = earlier ++ later →
    (runAll earlier).idOf? name = some id → (runAll edits).idOf? name = some id
  named : (runAll edits).size ≤ UInt32.size → ∀ name id, (runAll edits).idOf? name = some id →
    ∃ entity, (runAll edits).classAt? id = some entity ∧ fold entity.name = fold name
  linked : ∀ i j id, (runAll edits).baseAt? i j = some (.linked id) →
    id.toNat < (runAll edits).size ∧ ∃ earlier later name, edits = earlier ++ .linkBases :: later ∧
      (runAll earlier).baseAt? i j = some (.named name) ∧
      (∀ middle, middle <+: later →
        (runAll (earlier ++ .linkBases :: middle)).baseAt? i j = some (.linked id)) ∧
      ((runAll edits).size ≤ UInt32.size →
        ∃ entity, (runAll edits).classAt? id = some entity ∧ fold entity.name = fold name)

theorem isSome_idOf?_of_defined {edit : Edit} {entity : EntityClass}
    (defines : edit.defined? = some entity) (earlier : List Edit) :
    ((runAll (earlier ++ [edit])).idOf? entity.name).isSome := by
  rw [Database.isSome_idOf?, keys_runAll, List.mem_eraseDups, definedNames, List.filterMap_append,
    List.mem_append]
  right
  simp [defines]

/-- Whatever edits are made, linking that fails among them, numbers and links last. -/
theorem lasting (waiting : ∀ edit ∈ edits, edit.Waiting) : Lasting edits where
  keys := keys_runAll edits
  numbered name := by rw [Database.idOf?, OrderedMap.position?_eq, keys_runAll]
  known earlier edit later entity _ defines := isSome_idOf?_of_defined defines earlier
  kept := by
    rintro earlier later name id rfl known
    exact idOf?_append known later
  named few name id known := Database.exists_classAt? (keyed_runAll edits) few known
  linked := by
    intro i j id slot
    obtain ⟨earlier, later, name, rfl, named, known, since⟩ := exists_linking waiting slot
    have known := idOf?_append known (.linkBases :: later)
    exact ⟨Database.lt_size_of_idOf? known, earlier, later, name, rfl, named, since,
      fun few => Database.exists_classAt? (keyed_runAll _) few known⟩

namespace Redefined

def child : EntityClass :=
  { EntityClass.plain .point "Child" with bases := [.named "parent"] }

/-- The first linking fails, since the parent comes late. It is linked and then defined
anew under another spelling. -/
def history : List Edit :=
  [.define child, .linkBases, .define (.plain .base "Parent"), .beginFile "game.fgd", .linkBases,
    .extend "CHILD" [.base "Other"], .defineWith (.plain .base "PARENT") [.base "child"]]

theorem waiting : ∀ edit ∈ history, edit.Waiting := by
  simp [history, Waiting, defined?, child, EntityClass.links, EntityClass.plain]

end Redefined

/-- The parent has kept its number, under which the class that was defined last is found. -/
theorem lasting_redefined : (∀ edit ∈ Redefined.history, edit.Waiting) ∧
    (runAll Redefined.history).classes.keys = ["child", "parent"] ∧
    (runAll Redefined.history).idOf? "Parent" = some 1 ∧
    ∃ entity, (runAll Redefined.history).classAt? 1 = some entity ∧
      fold entity.name = "parent" := by
  have lasts := lasting Redefined.waiting
  have keys : (runAll Redefined.history).classes.keys = ["child", "parent"] :=
    lasts.keys.trans (by decide)
  have number : (runAll Redefined.history).idOf? "Parent" = some 1 :=
    (lasts.numbered "Parent").trans (by decide)
  have few : (runAll Redefined.history).size ≤ UInt32.size := by
    rw [Database.size, ← OrderedMap.length_keys, keys]
    decide
  obtain ⟨entity, found, named⟩ := lasts.named few "Parent" 1 number
  exact ⟨Redefined.waiting, keys, number, entity, found, named⟩

end Edit
end EntitySchema

