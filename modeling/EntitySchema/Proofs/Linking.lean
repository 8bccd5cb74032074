import EntitySchema.Proofs.Building
import EntitySchema.Proofs.Outcome

/-! Linking bases to the classes they name. Linking changes no keys, so all names are
looked up in the same order of classes, and distinct names lead to different classes;
each class is linked as a whole or stays as it was, and a problem is met exactly when
some class cannot be linked. -/
namespace EntitySchema

/-- What linking makes of one base: a name becomes the number of the class it names, and
a number stays. -/
inductive Base.Links (idOf? : String → Option ClassId) : Base → Base → Prop where
  | linked (id : ClassId) : Links idOf? (.linked id) (.linked id)
  | named {name : String} {id : ClassId} (known : idOf? name = some id) :
      Links idOf? (.named name) (.linked id)

theorem Base.links_named_iff {idOf? : String → Option ClassId} {name : String} {after : Base} :
    Links idOf? (.named name) after ↔ ∃ id, idOf? name = some id ∧ after = .linked id := by
  constructor
  · intro links
    cases links with
    | named known => exact ⟨_, known, rfl⟩
  · rintro ⟨id, known, rfl⟩
    exact .named known

namespace EntityClass

/-- Linking the bases of a class one by one. -/
theorem linkBase_eq_ok_iff (entity : EntityClass) {idOf? : String → Option ClassId}
    {before after : Base} :
    (match before with
      | .linked id => Except.ok (Base.linked id)
      | .named name =>
        match idOf? name with
        | some id => .ok (.linked id)
        | none => .error (SemanticProblem.unknownBase name entity.name)) = Except.ok after ↔
      Base.Links idOf? before after := by
  constructor
  · intro same
    cases before with
    | linked id =>
      cases same
      exact .linked id
    | named name =>
      cases known : idOf? name with
      | none => simp [known] at same
      | some id =>
        simp only [known] at same
        cases same
        exact .named known
  · intro links
    cases links with
    | linked id => rfl
    | named known => simp [known]

theorem linkBases_eq_ok_iff {entity linked : EntityClass} {idOf? : String → Option ClassId} :
    entity.linkBases idOf? = .ok linked ↔
      ∃ bases, List.Forall₂ (Base.Links idOf?) entity.bases bases ∧
        linked = { entity with bases } := by
  have rows : ∀ bases, List.Forall₂ (Base.Links idOf?) entity.bases bases ↔
      entity.bases.mapM _ = Except.ok bases := fun bases =>
    ⟨fun links => mapM_eq_ok_iff.mpr (links.imp fun _ _ => (linkBase_eq_ok_iff entity).mpr),
      fun linked => (mapM_eq_ok_iff.mp linked).imp fun _ _ => (linkBase_eq_ok_iff entity).mp⟩
  rw [linkBases, bind_eq_ok_iff]
  constructor
  · rintro ⟨bases, row, same⟩
    cases same
    exact ⟨bases, (rows bases).mpr row, rfl⟩
  · rintro ⟨bases, links, rfl⟩
    exact ⟨bases, (rows bases).mp links, rfl⟩

/-- A class cannot be linked because of the first of its bases that names no class. -/
theorem linkBases_eq_error_iff {entity : EntityClass} {idOf? : String → Option ClassId}
    {problem : SemanticProblem} :
    entity.linkBases idOf? = .error problem ↔ ∃ front name back,
      entity.bases = front ++ .named name :: back ∧
        (∀ known, .named known ∈ front → (idOf? known).isSome) ∧ idOf? name = none ∧
        problem = .unknownBase name entity.name := by
  have linkable : ∀ base, (∃ after, Base.Links idOf? base after) ↔
      ∀ name, base = .named name → (idOf? name).isSome := by
    intro base
    cases base with
    | linked id => exact ⟨fun _ => nofun, fun _ => ⟨_, .linked id⟩⟩
    | named name => simp [Base.links_named_iff, Option.isSome_iff_exists]
  rw [linkBases, bind_eq_error_iff, mapM_eq_error_iff]
  constructor
  · rintro (⟨front, base, back, bases, before, failed⟩ | ⟨bases, -, none⟩)
    · cases base with
      | linked id => cases failed
      | named name =>
        cases unknown : idOf? name with
        | some id => simp [unknown] at failed
        | none =>
          refine ⟨front, name, back, bases, fun known inside => ?_, unknown,
            by simpa [unknown] using failed.symm⟩
          obtain ⟨after, linked⟩ := before _ inside
          have links : Base.Links idOf? (.named known) after :=
            (linkBase_eq_ok_iff entity).mp linked
          exact (linkable _).mp ⟨after, links⟩ known rfl
    · cases none
  · rintro ⟨front, name, back, bases, before, unknown, rfl⟩
    refine Or.inl ⟨front, .named name, back, bases, fun base inside => ?_, by simp [unknown]⟩
    obtain ⟨after, links⟩ := (linkable base).mpr fun known same => before known (same ▸ inside)
    exact ⟨after, (linkBase_eq_ok_iff entity).mpr links⟩

/-- A class that cannot be linked has a base that names no class. -/
theorem unknownBase_of_linkBases {entity : EntityClass} {idOf? : String → Option ClassId}
    {problem : SemanticProblem} (failed : entity.linkBases idOf? = .error problem) :
    ∃ name, .named name ∈ entity.bases ∧ idOf? name = none ∧
      problem = .unknownBase name entity.name := by
  obtain ⟨front, name, back, bases, -, unknown, rfl⟩ := linkBases_eq_error_iff.mp failed
  refine ⟨name, ?_, unknown, rfl⟩
  rw [bases]
  exact List.mem_append_right front List.mem_cons_self

/-- A class without names that wait stays as it is. -/
theorem linkBases_of_linked {entity : EntityClass} (linked : entity.names = [])
    (idOf? : String → Option ClassId) : entity.linkBases idOf? = .ok entity := by
  refine linkBases_eq_ok_iff.mpr ⟨entity.bases, List.forall₂_same.mpr fun base inside => ?_, rfl⟩
  cases base with
  | named name => exact absurd (mem_names.mpr inside) (by simp [linked])
  | linked id => exact .linked id

/-- A class can be linked if every name that waits is known. -/
theorem linkBases_succeeds_iff {entity : EntityClass} {idOf? : String → Option ClassId} :
    (∃ linked, entity.linkBases idOf? = .ok linked) ↔
      ∀ name ∈ entity.names, (idOf? name).isSome := by
  constructor
  · rintro ⟨linked, succeeded⟩ name waiting
    obtain ⟨bases, links, -⟩ := linkBases_eq_ok_iff.mp succeeded
    obtain ⟨after, -, link⟩ := exists_of_forall₂ links.flip (mem_names.mp waiting)
    cases link with
    | named known => simp [known]
  · intro known
    cases result : entity.linkBases idOf? with
    | ok linked => exact ⟨linked, rfl⟩
    | error problem =>
      obtain ⟨name, waiting, unknown, -⟩ := unknownBase_of_linkBases result
      have := known name (mem_names.mpr waiting)
      simp [unknown] at this

variable {entity : EntityClass} {size : Nat}

/-- Links to classes at different positions, of which there are `size`. -/
def LinksApart (size : Nat) (entity : EntityClass) : Prop :=
  ∃ positions : List Nat, positions.Nodup ∧ (∀ i ∈ positions, i < size) ∧
    entity.links = positions.map Nat.toUInt32

namespace LinksApart

theorem of_unlinked (unlinked : entity.links = []) : entity.LinksApart size :=
  ⟨[], List.nodup_nil, nofun, unlinked⟩

theorem mono {larger : Nat} (apart : entity.LinksApart size) (more : size ≤ larger) :
    entity.LinksApart larger := by
  obtain ⟨positions, distinct, inside, same⟩ := apart
  exact ⟨positions, distinct, fun i member => Nat.lt_of_lt_of_le (inside i member) more, same⟩

theorem lt_size (apart : entity.LinksApart size) {id : ClassId} (linked : id ∈ entity.links) :
    id.toNat < size := by
  obtain ⟨positions, _, inside, same⟩ := apart
  rw [same] at linked
  obtain ⟨i, member, rfl⟩ := List.mem_map.mp linked
  exact Nat.lt_of_le_of_lt (Nat.mod_le i _) (inside i member)

/-- Positions have different numbers as long as there are numbers enough. -/
theorem nodup (apart : entity.LinksApart size) (few : size ≤ UInt32.size) :
    entity.links.Nodup := by
  obtain ⟨positions, distinct, inside, same⟩ := apart
  rw [same]
  apply distinct.map_on
  intro i inI j inJ equal
  have whole : ∀ k ∈ positions, k.toUInt32.toNat = k := fun k member =>
    UInt32.toNat_ofNat_of_lt (Nat.lt_of_lt_of_le (inside k member) few)
  rw [← whole i inI, equal, whole j inJ]

end LinksApart

/-- Linked bases stay as they are. -/
theorem eq_of_links {idOf? : String → Option ClassId} {ids : List ClassId} {linked : List Base}
    (links : List.Forall₂ (Base.Links idOf?) (ids.map Base.linked) linked) :
    linked = ids.map Base.linked := by
  induction ids generalizing linked with
  | nil =>
    cases links
    rfl
  | cons id ids ih =>
    rw [List.map_cons, List.forall₂_cons_left_iff] at links
    obtain ⟨after, rest, first, others, rfl⟩ := links
    cases first
    rw [ih others, List.map_cons]

theorem links_linked (ids : List ClassId) :
    { entity with bases := ids.map Base.linked }.links = ids := by
  simp [links, List.filterMap_map]

theorem names_of_links {idOf? : String → Option ClassId} {bases : List Base}
    (links : List.Forall₂ (Base.Links idOf?) entity.bases bases) :
    { entity with bases }.names = [] := by
  apply List.eq_nil_iff_forall_not_mem.mpr
  intro name waiting
  obtain ⟨_, _, link⟩ := exists_of_forall₂ links (mem_names.mp waiting)
  cases link

/-- Names in canonical form are linked to the classes at as many positions. -/
theorem exists_positions {db : Database} {names : List String} {linked : List Base}
    (links : List.Forall₂ (Base.Links db.idOf?) (names.map Base.named) linked)
    (folded : ∀ name ∈ names, fold name = name) :
    ∃ positions : List Nat,
      List.Forall₂ (fun name i => db.classes.position? name = some i) names positions ∧
        linked = positions.map fun i => .linked i.toUInt32 := by
  induction names generalizing linked with
  | nil =>
    cases links
    exact ⟨[], .nil, rfl⟩
  | cons name names ih =>
    rw [List.map_cons, List.forall₂_cons_left_iff] at links
    obtain ⟨after, rest, first, others, rfl⟩ := links
    obtain ⟨id, known, rfl⟩ := Base.links_named_iff.mp first
    obtain ⟨positions, placed, rfl⟩ := ih others (List.forall_mem_cons.mp folded).2
    rw [Database.idOf?, folded name List.mem_cons_self, Option.map_eq_some_iff] at known
    obtain ⟨i, found, rfl⟩ := known
    exact ⟨i :: positions, .cons found placed, rfl⟩

/-- Distinct names are at distinct positions. -/
theorem nodup_positions {db : Database} {names : List String} {positions : List Nat}
    (placed : List.Forall₂ (fun name i => db.classes.position? name = some i) names positions)
    (distinct : names.Nodup) : positions.Nodup := by
  have unique : Relator.BiUnique fun name i => db.classes.position? name = some i := by
    constructor
    · intro first second i left right
      rw [OrderedMap.position?_eq_some_iff] at left right
      exact Option.some.inj (left.symm.trans right)
    · intro name i j left right
      exact Option.some.inj (left.symm.trans right)
  exact (List.rel_nodup unique placed).mp distinct

/-- Bases that all wait are linked to different classes. -/
theorem linksApart_of_unlinked {db : Database} {bases : List Base} (unlinked : entity.links = [])
    (folded : ∀ name ∈ entity.names, fold name = name) (distinct : entity.names.Nodup)
    (links : List.Forall₂ (Base.Links db.idOf?) entity.bases bases) :
    { entity with bases }.LinksApart db.size := by
  rw [bases_eq_of_unlinked unlinked] at links
  obtain ⟨positions, placed, rfl⟩ := exists_positions links folded
  refine ⟨positions, nodup_positions placed distinct, fun i member => ?_, ?_⟩
  · obtain ⟨name, _, found⟩ := exists_of_forall₂ placed member
    exact OrderedMap.lt_size_of_position? found
  · rw [← links_linked (positions.map Nat.toUInt32), List.map_map]
    rfl

end EntityClass

namespace Database

theorem linkFrom_rest (db : Database) (i : Nat) :
    (db.linkFrom i).1 = { db with classes := (db.linkFrom i).1.classes } := by
  fun_induction db.linkFrom i with
  | case1 db i inside entity linked ih => exact ih
  | case2 db i inside problem failed => rfl
  | case3 db i outside => rfl

theorem linkFrom_keys (db : Database) (i : Nat) :
    (db.linkFrom i).1.classes.keys = db.classes.keys := by
  fun_induction db.linkFrom i with
  | case1 db i inside entity linked ih => rw [ih, OrderedMap.keys_setAt]
  | case2 db i inside problem failed => rfl
  | case3 db i outside => rfl

theorem idOf?_setAt (db : Database) (i : Nat) (entity : EntityClass) :
    { db with classes := db.classes.setAt i entity }.idOf? = db.idOf? := by
  funext name
  simp only [idOf?, OrderedMap.position?_setAt]

theorem entryAt?_of_lt {db : Database} {i : Nat} (inside : i < db.classes.entries.size) :
    db.classes.entryAt? i = some (db.classes.entries[i].1, db.classes.entries[i].2) :=
  Array.getElem?_eq_getElem inside

/-- Classes before the first position stay as they are; one behind it is linked, or stays
because of a problem. -/
theorem linkFrom_entryAt? {db : Database} {i j : Nat} {key : String} {entity : EntityClass}
    (found : db.classes.entryAt? j = some (key, entity)) :
    ∃ after, (db.linkFrom i).1.classes.entryAt? j = some (key, after) ∧
      (j < i ∧ after = entity ∨ i ≤ j ∧ (entity.linkBases db.idOf? = .ok after ∨
        after = entity ∧ (db.linkFrom i).2 ≠ none)) := by
  fun_induction db.linkFrom i generalizing entity with
  | case1 db i inside linked succeeded ih =>
    rw [idOf?_setAt] at ih
    by_cases same : i = j
    · subst same
      cases (entryAt?_of_lt inside).symm.trans found
      obtain ⟨after, placed, ⟨-, rfl⟩ | ⟨beyond, -⟩⟩ :=
        ih (OrderedMap.entryAt?_setAt_self found linked)
      · exact ⟨after, placed, Or.inr ⟨Nat.le_refl i, Or.inl succeeded⟩⟩
      · omega
    · rw [← OrderedMap.entryAt?_setAt_ne same linked] at found
      obtain ⟨after, placed, ⟨before, kept⟩ | ⟨behind, made⟩⟩ := ih found
      · exact ⟨after, placed, Or.inl ⟨by omega, kept⟩⟩
      · exact ⟨after, placed, Or.inr ⟨by omega, made⟩⟩
  | case2 db i inside problem failed =>
    refine ⟨entity, found, ?_⟩
    rcases Nat.lt_or_ge j i with before | behind
    · exact Or.inl ⟨before, rfl⟩
    · exact Or.inr ⟨behind, Or.inr ⟨rfl, by simp⟩⟩
  | case3 db i outside =>
    have inside := OrderedMap.lt_size_of_position? (OrderedMap.position?_of_entryAt? found)
    exact ⟨entity, found, Or.inl ⟨Nat.lt_of_lt_of_le inside (Nat.le_of_not_lt outside), rfl⟩⟩

theorem linkBases_size (db : Database) : db.linkBases.1.size = db.size := by
  rw [size, ← OrderedMap.length_keys, linkBases, linkFrom_keys, OrderedMap.length_keys, size]

/-- After a linking, every class is the linked form of the one that stood in its place, or
that class because of a problem. -/
theorem exists_original {db : Database} {i : Nat} {key : String} {entity : EntityClass}
    (found : db.linkBases.1.classes.entryAt? i = some (key, entity)) :
    ∃ original, db.classes.entryAt? i = some (key, original) ∧
      (original.linkBases db.idOf? = .ok entity ∨ entity = original ∧ db.linkBases.2 ≠ none) := by
  have inside : i < db.classes.entries.size := by
    rw [← OrderedMap.size, ← size, ← linkBases_size]
    exact OrderedMap.lt_size_of_position? (OrderedMap.position?_of_entryAt? found)
  have before := entryAt?_of_lt inside
  obtain ⟨after, placed, ⟨impossible, -⟩ | ⟨-, made⟩⟩ := linkFrom_entryAt? (i := 0) before
  · omega
  · rw [linkBases, placed] at found
    cases found
    exact ⟨_, before, made⟩

/-- Each class after a linking comes from the one in its place. -/
theorem exists_of_linkBases {db : Database} {key : String} {after : EntityClass}
    (member : (key, after) ∈ db.linkBases.1.classes.toList) :
    ∃ entity, (key, entity) ∈ db.classes.toList ∧
      ((∃ bases, List.Forall₂ (Base.Links db.idOf?) entity.bases bases ∧
        after = { entity with bases }) ∨ after = entity ∧ db.linkBases.2 ≠ none) := by
  obtain ⟨i, found⟩ := List.mem_iff_getElem?.mp member
  rw [← OrderedMap.entryAt?_eq] at found
  obtain ⟨entity, before, linked | kept⟩ := exists_original found
  · exact ⟨entity, OrderedMap.mem_toList_of_entryAt? before,
      Or.inl (EntityClass.linkBases_eq_ok_iff.mp linked)⟩
  · exact ⟨entity, OrderedMap.mem_toList_of_entryAt? before, Or.inr kept⟩

theorem exists_linked {db : Database} (clear : db.linkBases.2 = none) {i : Nat} {key : String}
    {entity : EntityClass} (found : db.linkBases.1.classes.entryAt? i = some (key, entity)) :
    ∃ original, db.classes.entryAt? i = some (key, original) ∧
      original.linkBases db.idOf? = .ok entity := by
  obtain ⟨original, before, linked | ⟨-, problem⟩⟩ := exists_original found
  · exact ⟨original, before, linked⟩
  · exact absurd clear problem

/-- If no problem is met, every class comes out under its key with its bases linked. -/
theorem entryAt?_linkBases {db : Database} (clear : db.linkBases.2 = none) {i : Nat} {key : String}
    {entity : EntityClass} (found : db.classes.entryAt? i = some (key, entity)) :
    ∃ bases, List.Forall₂ (Base.Links db.idOf?) entity.bases bases ∧
      db.linkBases.1.classes.entryAt? i = some (key, { entity with bases }) := by
  obtain ⟨after, placed, ⟨before, -⟩ | ⟨-, linked | ⟨-, problem⟩⟩⟩ :=
    linkFrom_entryAt? (i := 0) found
  · omega
  · obtain ⟨bases, links, rfl⟩ := EntityClass.linkBases_eq_ok_iff.mp linked
    exact ⟨bases, links, placed⟩
  · exact absurd clear problem

theorem linkFrom_succeeds {db : Database} {i : Nat}
    (linkable : ∀ j key entity, i ≤ j → db.classes.entryAt? j = some (key, entity) →
      ∃ after, entity.linkBases db.idOf? = .ok after) : (db.linkFrom i).2 = none := by
  fun_induction db.linkFrom i with
  | case1 db i inside linked succeeded ih =>
    apply ih
    intro j key entity behind found
    rw [idOf?_setAt]
    rw [OrderedMap.entryAt?_setAt_ne (by omega)] at found
    exact linkable j key entity (by omega) found
  | case2 db i inside problem failed =>
    obtain ⟨after, succeeded⟩ := linkable i _ _ (Nat.le_refl i) (entryAt?_of_lt inside)
    rw [failed] at succeeded
    cases succeeded
  | case3 db i outside => rfl

theorem unknownBase_of_linkFrom {db : Database} {i : Nat} {problem : SemanticProblem}
    (failed : (db.linkFrom i).2 = some problem) :
    ∃ name classname, problem = .unknownBase name classname := by
  fun_induction db.linkFrom i with
  | case1 db i inside linked succeeded ih => exact ih failed
  | case2 db i inside other problemMet =>
    cases failed
    obtain ⟨name, -, -, same⟩ := EntityClass.unknownBase_of_linkBases problemMet
    exact ⟨name, _, same⟩
  | case3 db i outside => cases failed

section

variable {db : Database} {i : Nat} {key : String} {entity : EntityClass}

theorem isSome_idOf? {name : String} : (db.idOf? name).isSome ↔ fold name ∈ db.classes.keys := by
  rw [idOf?, Option.isSome_map, OrderedMap.position?_eq, List.isSome_idxOf?]

/-- As long as there are numbers enough, a name leads to the number of the class stored
under it. -/
theorem keys_of_idOf? {name : String} {id : ClassId} (few : db.size ≤ UInt32.size)
    (known : db.idOf? name = some id) : db.classes.keys[id.toNat]? = some (fold name) := by
  obtain ⟨i, found, rfl⟩ := Option.map_eq_some_iff.mp known
  have inside : i < db.size := OrderedMap.lt_size_of_position? found
  have whole : i.toUInt32.toNat = i := UInt32.toNat_ofNat_of_lt (Nat.lt_of_lt_of_le inside few)
  rw [whole]
  exact OrderedMap.position?_eq_some_iff.mp found

theorem idOf?_of_keys {name : String} {id : ClassId}
    (stored : db.classes.keys[id.toNat]? = some (fold name)) : db.idOf? name = some id := by
  rw [idOf?, OrderedMap.position?_eq_some_iff.mpr stored, Option.map_some]
  exact congrArg some (UInt32.ofNat_toNat ..)

/-- No problem is met exactly if every name that waits in some class is that of a class. -/
theorem linkBases_clear_iff : db.linkBases.2 = none ↔
    ∀ entity ∈ db.classes.values, ∀ name ∈ entity.names, fold name ∈ db.classes.keys := by
  simp only [← isSome_idOf?]
  constructor
  · intro clear entity member
    obtain ⟨key, entry⟩ := OrderedMap.mem_values.mp member
    obtain ⟨i, found⟩ := List.mem_iff_getElem?.mp entry
    rw [← OrderedMap.entryAt?_eq] at found
    obtain ⟨bases, links, -⟩ := entryAt?_linkBases clear found
    exact EntityClass.linkBases_succeeds_iff.mp
      ⟨_, EntityClass.linkBases_eq_ok_iff.mpr ⟨bases, links, rfl⟩⟩
  · intro known
    apply linkFrom_succeeds
    intro j key entity _ found
    have member := OrderedMap.mem_values.mpr ⟨key, OrderedMap.mem_toList_of_entryAt? found⟩
    exact EntityClass.linkBases_succeeds_iff.mpr (known entity member)

theorem linkFrom_of_ok {linked : EntityClass} (found : db.classes.entryAt? i = some (key, entity))
    (succeeded : entity.linkBases db.idOf? = .ok linked) :
    db.linkFrom i = { db with classes := db.classes.setAt i linked }.linkFrom (i + 1) := by
  obtain ⟨inside, same⟩ := Array.getElem?_eq_some_iff.mp found
  have here : db.classes.entries[i].2.linkBases db.idOf? = .ok linked := by rw [same, succeeded]
  rw [linkFrom, dif_pos inside]
  simp only [here]

theorem linkFrom_of_error {problem : SemanticProblem}
    (found : db.classes.entryAt? i = some (key, entity))
    (failed : entity.linkBases db.idOf? = .error problem) : db.linkFrom i = (db, some problem) := by
  obtain ⟨inside, same⟩ := Array.getElem?_eq_some_iff.mp found
  have here : db.classes.entries[i].2.linkBases db.idOf? = .error problem := by rw [same, failed]
  rw [linkFrom, dif_pos inside]
  simp only [here]

/-- Linking again meets the same problem, or none, and changes nothing. -/
theorem linkFrom_linkFrom (db : Database) (i : Nat) :
    (db.linkFrom i).1.linkFrom i = db.linkFrom i := by
  fun_induction db.linkFrom i with
  | case1 db i inside linked succeeded ih =>
    have placed : ({ db with classes := db.classes.setAt i linked } : Database).classes.entryAt? i =
        some (db.classes.entries[i].1, linked) :=
      OrderedMap.entryAt?_setAt_self (entryAt?_of_lt inside) linked
    obtain ⟨after, found, ⟨-, rfl⟩ | ⟨beyond, -⟩⟩ := linkFrom_entryAt? (i := i + 1) placed
    · obtain ⟨bases, links, rfl⟩ := EntityClass.linkBases_eq_ok_iff.mp succeeded
      have settled := EntityClass.linkBases_of_linked (EntityClass.names_of_links links)
      rw [linkFrom_of_ok found (settled _), OrderedMap.setAt_self found]
      exact ih
    · omega
  | case2 db i inside problem failed => exact linkFrom_of_error (entryAt?_of_lt inside) failed
  | case3 db i outside => rw [linkFrom, dif_neg outside]

/-- Linking changes nothing where no name waits. -/
theorem linkFrom_of_linked (linked : ∀ entity ∈ db.classes.values, entity.names = []) (i : Nat) :
    db.linkFrom i = (db, none) := by
  fun_induction db.linkFrom i with
  | case1 db i inside entity succeeded ih =>
    have found := entryAt?_of_lt inside
    have member := OrderedMap.mem_values.mpr ⟨_, OrderedMap.mem_toList_of_entryAt? found⟩
    rw [EntityClass.linkBases_of_linked (linked _ member), Except.ok.injEq] at succeeded
    subst succeeded
    rw [OrderedMap.setAt_self found] at ih ⊢
    exact ih linked
  | case2 db i inside problem failed =>
    have found := entryAt?_of_lt inside
    have member := OrderedMap.mem_values.mpr ⟨_, OrderedMap.mem_toList_of_entryAt? found⟩
    rw [EntityClass.linkBases_of_linked (linked _ member)] at failed
    cases failed
  | case3 db i outside => rfl

theorem linkBases_of_empty (empty : db.classes = ∅) : db.linkBases = (db, none) := by
  refine linkFrom_of_linked (fun entity member => ?_) 0
  rw [empty] at member
  cases member

theorem linkBases_linkBases (db : Database) : db.linkBases.1.linkBases = db.linkBases :=
  linkFrom_linkFrom db 0

end

end Database
end EntitySchema
