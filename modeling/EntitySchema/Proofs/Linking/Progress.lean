import EntitySchema.Proofs.Linking

/-! How far linking gets. Classes are linked in the order of their numbers, up to the first
that has a base with an unknown name; that class and all behind it stay as they are. Names are
looked up in the same keys all along, so linking a database comes to linking its classes as
a row. -/
namespace EntitySchema

variable {idOf? : String → Option ClassId}

/-- The entry after all bases of its class have been linked, each in its place. -/
def LinkedEntry (idOf? : String → Option ClassId) (before after : String × EntityClass) : Prop :=
  ∃ bases, List.Forall₂ (Base.Links idOf?) before.2.bases bases ∧
    after = (before.1, { before.2 with bases })

theorem linkedEntry_iff {before after : String × EntityClass} :
    LinkedEntry idOf? before after ↔
      after.1 = before.1 ∧ before.2.linkBases idOf? = .ok after.2 := by
  rw [EntityClass.linkBases_eq_ok_iff]
  constructor
  · rintro ⟨bases, links, rfl⟩
    exact ⟨rfl, bases, links, rfl⟩
  · rintro ⟨key, bases, links, entity⟩
    exact ⟨bases, links, Prod.ext key entity⟩

/-- Links a row of classes one by one, up to the first with an unknown base. -/
def linkRow (idOf? : String → Option ClassId) :
    List (String × EntityClass) → List (String × EntityClass) × Option SemanticProblem
  | [] => ([], none)
  | (key, entity) :: rest =>
    match entity.linkBases idOf? with
    | .ok linked => ((key, linked) :: (linkRow idOf? rest).1, (linkRow idOf? rest).2)
    | .error problem => ((key, entity) :: rest, some problem)

section

variable {key : String} {entity : EntityClass} {row : List (String × EntityClass)}
  {problem : SemanticProblem}

theorem linkRow_of_ok {linked : EntityClass} (succeeded : entity.linkBases idOf? = .ok linked) :
    linkRow idOf? ((key, entity) :: row) =
      ((key, linked) :: (linkRow idOf? row).1, (linkRow idOf? row).2) := by
  rw [linkRow, succeeded]

theorem linkRow_of_error (failed : entity.linkBases idOf? = .error problem) :
    linkRow idOf? ((key, entity) :: row) = ((key, entity) :: row, some problem) := by
  rw [linkRow, failed]

/-- Without a problem every class of a row has been linked. -/
theorem linkedEntry_of_clear (clear : (linkRow idOf? row).2 = none) :
    List.Forall₂ (LinkedEntry idOf?) row (linkRow idOf? row).1 := by
  induction row with
  | nil => exact .nil
  | cons entry row ih =>
    obtain ⟨key, entity⟩ := entry
    cases result : entity.linkBases idOf? with
    | ok linked =>
      rw [linkRow_of_ok result] at clear ⊢
      exact .cons (linkedEntry_iff.mpr ⟨rfl, result⟩) (ih clear)
    | error problem =>
      rw [linkRow_of_error result] at clear
      cases clear

/-- A problem is that of the first class that cannot be linked, and parts the classes that have
been linked from those that stay. -/
theorem exists_stuck (stuck : (linkRow idOf? row).2 = some problem) :
    ∃ front linked key entity back, row = front ++ (key, entity) :: back ∧
      (linkRow idOf? row).1 = linked ++ (key, entity) :: back ∧
      List.Forall₂ (LinkedEntry idOf?) front linked ∧
      entity.linkBases idOf? = .error problem := by
  induction row with
  | nil => cases stuck
  | cons entry row ih =>
    obtain ⟨key, entity⟩ := entry
    cases result : entity.linkBases idOf? with
    | ok linked =>
      rw [linkRow_of_ok result] at stuck ⊢
      obtain ⟨front, others, atKey, atEntity, back, rfl, after, links, failed⟩ := ih stuck
      refine ⟨(key, entity) :: front, (key, linked) :: others, atKey, atEntity, back, rfl, ?_,
        .cons (linkedEntry_iff.mpr ⟨rfl, result⟩) links, failed⟩
      rw [after, List.cons_append]
    | error other =>
      rw [linkRow_of_error result] at stuck ⊢
      cases stuck
      exact ⟨[], [], key, entity, row, rfl, rfl, .nil, result⟩

end

namespace Database

variable {db : Database}

/-- The row of classes from a position on begins with the class there. -/
theorem exists_entry {i : Nat} (inside : i < db.classes.entries.size) :
    ∃ key entity, db.classes.entries[i] = (key, entity) ∧
      db.classes.toList[i]? = some (key, entity) ∧
      db.classes.toList.drop i = (key, entity) :: db.classes.toList.drop (i + 1) :=
  ⟨_, _, rfl, (OrderedMap.entryAt?_eq ..).symm.trans (entryAt?_of_lt inside),
    List.drop_eq_getElem_cons inside⟩

/-- Linking from a position on is linking the row of classes from there on. -/
theorem linkFrom_eq_linkRow (db : Database) (i : Nat) :
    (db.linkFrom i).1.classes.toList =
        db.classes.toList.take i ++ (linkRow db.idOf? (db.classes.toList.drop i)).1 ∧
      (db.linkFrom i).2 = (linkRow db.idOf? (db.classes.toList.drop i)).2 := by
  fun_induction db.linkFrom i with
  | case1 db i inside linked succeeded ih =>
    obtain ⟨key, entity, here, found, row⟩ := exists_entry inside
    have within := (List.getElem?_eq_some_iff.mp found).1
    rw [here] at succeeded
    rw [idOf?_setAt, OrderedMap.toList_setAt found, List.take_add_one,
      List.getElem?_set_self within, List.take_set_of_le (Nat.le_refl i),
      List.drop_set_of_lt (Nat.lt_succ_self i)] at ih
    rw [row, linkRow_of_ok succeeded]
    exact ⟨ih.1.trans (List.append_assoc ..), ih.2⟩
  | case2 db i inside problem failed =>
    obtain ⟨key, entity, here, found, row⟩ := exists_entry inside
    rw [here] at failed
    rw [row, linkRow_of_error failed, ← row, List.take_append_drop]
    exact ⟨rfl, rfl⟩
  | case3 db i outside =>
    have all : db.classes.toList.length ≤ i := Nat.le_of_not_lt outside
    rw [List.drop_eq_nil_of_le all, List.take_of_length_le all, linkRow, List.append_nil]
    exact ⟨rfl, rfl⟩

theorem linkBases_eq_linkRow (db : Database) :
    db.linkBases.1.classes.toList = (linkRow db.idOf? db.classes.toList).1 ∧
      db.linkBases.2 = (linkRow db.idOf? db.classes.toList).2 :=
  db.linkFrom_eq_linkRow 0

theorem isSome_idOf?_eq (db : Database) (name : String) :
    (db.idOf? name).isSome = db.contains name := Option.isSome_map

theorem linkBases_clear_iff_contains : db.linkBases.2 = none ↔
    ∀ entity ∈ db.classes.values, ∀ name, .named name ∈ entity.bases → db.contains name = true := by
  simp only [linkBases_clear_iff, ← isSome_idOf?, EntityClass.mem_names, isSome_idOf?_eq]

/-- Linking succeeds exactly if every base that waits names a class. It then replaces each by the
number of that class, in its place, changes nothing else and has nothing left to do. Otherwise it
reports the first unknown name of the first class that has one; the classes before that one are
linked, and it and all behind it are as they were. -/
theorem linkBases_in_order (db : Database) :
    (db.linkBases.2 = none ↔ ∀ entity ∈ db.classes.values, ∀ name,
        .named name ∈ entity.bases → db.contains name = true) ∧
      (db.linkBases.2 = none →
        List.Forall₂ (LinkedEntry db.idOf?) db.classes.toList db.linkBases.1.classes.toList ∧
        db.linkBases.1.linkBases = (db.linkBases.1, none)) ∧
      (∀ problem, db.linkBases.2 = some problem →
        ∃ before linked key entity after front name back,
          db.classes.toList = before ++ (key, entity) :: after ∧
          db.linkBases.1.classes.toList = linked ++ (key, entity) :: after ∧
          List.Forall₂ (LinkedEntry db.idOf?) before linked ∧
          entity.bases = front ++ .named name :: back ∧ db.contains name = false ∧
          (∀ known, .named known ∈ front → db.contains known = true) ∧
          problem = .unknownBase name entity.name) ∧
      db.linkBases.1 = { db with classes := db.linkBases.1.classes } := by
  obtain ⟨row, outcome⟩ := db.linkBases_eq_linkRow
  refine ⟨linkBases_clear_iff_contains, fun clear => ⟨?_, ?_⟩, fun problem stuck => ?_,
    db.linkFrom_rest 0⟩
  · rw [row]
    exact linkedEntry_of_clear (outcome.symm.trans clear)
  · rw [linkBases_linkBases, ← clear]
  · obtain ⟨before, linked, key, entity, after, same, left, links, failed⟩ :=
      exists_stuck (outcome.symm.trans stuck)
    obtain ⟨front, name, back, bases, known, unknown, rfl⟩ :=
      EntityClass.linkBases_eq_error_iff.mp failed
    refine ⟨before, linked, key, entity, after, front, name, back, same, row.trans left, links,
      bases, ?_, fun name inside => ?_, rfl⟩
    · rw [← isSome_idOf?_eq, unknown, Option.isSome_none]
    · rw [← isSome_idOf?_eq]
      exact known name inside

namespace Stuck

def light : EntityClass := { EntityClass.plain .point "Light" with bases := [.named "target"] }

def orphan : EntityClass :=
  { EntityClass.plain .point "Orphan" with
    bases := [.linked 0, .named "target", .named "ghost", .named "light"] }

def target : EntityClass := { EntityClass.plain .base "Target" with bases := [.named "void"] }

/-- Two classes with bases that do not exist, behind one that can be linked. -/
def database : Database :=
  { Database.empty with
    classes := .ofDistinct [("light", light), ("orphan", orphan), ("target", target)] (by decide) }

theorem idOf?_eq (name : String) : database.idOf? name =
    (["light", "orphan", "target"].idxOf? (fold name)).map Nat.toUInt32 := by
  rw [Database.idOf?, OrderedMap.position?_eq]
  rfl

theorem linkBases_light :
    light.linkBases database.idOf? = .ok { light with bases := [.linked 2] } :=
  EntityClass.linkBases_eq_ok_iff.mpr
    ⟨_, .cons (.named ((idOf?_eq "target").trans (by decide))) .nil, rfl⟩

theorem linkBases_orphan :
    orphan.linkBases database.idOf? = .error (.unknownBase "ghost" "Orphan") := by
  refine EntityClass.linkBases_eq_error_iff.mpr
    ⟨[.linked 0, .named "target"], "ghost", [.named "light"], rfl, fun known inside => ?_, ?_, rfl⟩
  · obtain rfl : known = "target" := by simpa using inside
    rw [idOf?_eq]
    decide
  · rw [idOf?_eq]
    decide

theorem problem_database : database.linkBases.2 = some (.unknownBase "ghost" "Orphan") := by
  rw [database.linkBases_eq_linkRow.2]
  change (linkRow database.idOf? [("light", light), ("orphan", orphan), ("target", target)]).2 = _
  rw [linkRow_of_ok linkBases_light, linkRow_of_error linkBases_orphan]

end Stuck

/-- The light has been linked; the orphan keeps even those bases that could be linked, and the
target behind it is not reached. -/
theorem linkBases_in_order_stuck :
    Stuck.database.linkBases.2 = some (.unknownBase "ghost" "Orphan") ∧
      ∃ linked, LinkedEntry Stuck.database.idOf? ("light", Stuck.light) linked ∧
        Stuck.database.linkBases.1.classes.toList =
          [linked, ("orphan", Stuck.orphan), ("target", Stuck.target)] := by
  have problem := Stuck.problem_database
  obtain ⟨before, linked, key, entity, after, front, name, back, same, left, links, -, -, -, met⟩ :=
    (linkBases_in_order Stuck.database).2.2.1 _ problem
  change [("light", Stuck.light), ("orphan", Stuck.orphan), ("target", Stuck.target)] = _ at same
  injection met with _ named
  refine ⟨problem, ?_⟩
  rcases before with _ | ⟨first, _ | ⟨second, _ | ⟨third, more⟩⟩⟩
  · cases same
    simp [Stuck.light, EntityClass.plain] at named
  · cases same
    obtain ⟨linked, rfl⟩ := List.length_eq_one_iff.mp links.length_eq.symm
    exact ⟨linked, (List.forall₂_cons.mp links).1, left⟩
  · cases same
    simp [Stuck.target, EntityClass.plain] at named
  · simp at same

end Database
end EntitySchema
