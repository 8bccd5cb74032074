import EntitySchema.Proofs.Linking.Progress

/-! Linking early. A definition takes no name out of a database, so what could be linked before it
is linked to the same classes after it, and a class that has been linked already is left as it
is. Linking a database before a class is defined in it therefore makes no difference to
linking it afterwards, even if it failed or the definition replaces a linked class. -/
namespace EntitySchema

namespace OrderedMap

variable {α : Type} {R : String × α → String × α → Prop} {first second : OrderedMap α}

theorem keys_eq_of_forall₂ (rows : List.Forall₂ R first.toList second.toList)
    (keys : ∀ before after, R before after → before.1 = after.1) : first.keys = second.keys := by
  rw [OrderedMap.keys, OrderedMap.keys, ← List.forall₂_eq_eq_eq, List.forall₂_map_left_iff,
    List.forall₂_map_right_iff]
  exact rows.imp keys

/-- The same entry comes to stand in the same place. -/
theorem forall₂_insert (rows : List.Forall₂ R first.toList second.toList)
    (keys : ∀ before after, R before after → before.1 = after.1) {key : String} {value : α}
    (same : R (key, value) (key, value)) :
    List.Forall₂ R (first.insert key value).toList (second.insert key value).toList := by
  have position : first.position? key = second.position? key := by
    rw [position?_eq, position?_eq, keys_eq_of_forall₂ rows keys]
  cases found : second.position? key with
  | none =>
    rw [toList_insert_of_not_mem (position?_eq_none.mp found),
      toList_insert_of_not_mem (position?_eq_none.mp (position.trans found))]
    exact List.rel_append rows (.cons same .nil)
  | some i =>
    have within := lt_size_of_position? found
    rw [toList_insert_of_position? found, toList_insert_of_position? (position.trans found),
      List.set_eq_take_append_cons_drop, List.set_eq_take_append_cons_drop, rows.length_eq,
      length_toList, if_pos within, if_pos within]
    exact List.rel_append (List.forall₂_take i rows) (.cons same (List.forall₂_drop (i + 1) rows))

end OrderedMap

variable {idOf? wider : String → Option ClassId}

/-- Entries under one key whose classes come out of linking alike. -/
def LinkedAlike (idOf? : String → Option ClassId) (first second : String × EntityClass) : Prop :=
  first.1 = second.1 ∧ first.2.linkBases idOf? = second.2.linkBases idOf?

/-- Rows that are linked alike, class by class, come out with the same problem, or without any
and with the same classes. -/
theorem linkRow_congr {first second : List (String × EntityClass)}
    (rows : List.Forall₂ (LinkedAlike idOf?) first second) :
    (linkRow idOf? first).2 = (linkRow idOf? second).2 ∧
      ((linkRow idOf? second).2 = none → (linkRow idOf? first).1 = (linkRow idOf? second).1) := by
  induction rows with
  | nil => exact ⟨rfl, fun _ => rfl⟩
  | @cons here there first second alike _ ih =>
    obtain ⟨key, entity⟩ := here
    obtain ⟨_, other⟩ := there
    obtain ⟨rfl, same⟩ := alike
    dsimp only at same
    cases result : other.linkBases idOf? with
    | ok linked =>
      rw [linkRow_of_ok (same.trans result), linkRow_of_ok result]
      exact ⟨ih.1, fun clear => by rw [ih.2 clear]⟩
    | error problem =>
      rw [linkRow_of_error (same.trans result), linkRow_of_error result]
      exact ⟨rfl, nofun⟩

/-- A class that can be linked is linked to the same classes when further names are known. -/
theorem EntityClass.linkBases_mono {entity linked : EntityClass}
    (more : ∀ name id, idOf? name = some id → wider name = some id)
    (succeeded : entity.linkBases idOf? = .ok linked) : entity.linkBases wider = .ok linked := by
  obtain ⟨bases, links, rfl⟩ := linkBases_eq_ok_iff.mp succeeded
  refine linkBases_eq_ok_iff.mpr ⟨bases, links.imp fun before after link => ?_, rfl⟩
  cases link with
  | linked id => exact .linked id
  | named known => exact .named (more _ _ known)

/-- Once further names are known, a row that has been linked so far as it could be comes out of
linking like the row it was. -/
theorem linkedAlike_linkRow (more : ∀ name id, idOf? name = some id → wider name = some id)
    (row : List (String × EntityClass)) :
    List.Forall₂ (LinkedAlike wider) (linkRow idOf? row).1 row := by
  induction row with
  | nil => exact .nil
  | cons entry row ih =>
    obtain ⟨key, entity⟩ := entry
    cases result : entity.linkBases idOf? with
    | ok linked =>
      rw [linkRow_of_ok result]
      obtain ⟨bases, links, rfl⟩ := EntityClass.linkBases_eq_ok_iff.mp result
      have again := EntityClass.linkBases_of_linked (EntityClass.names_of_links links) wider
      exact .cons ⟨rfl, again.trans (EntityClass.linkBases_mono more result).symm⟩ ih
    | error problem =>
      rw [linkRow_of_error result]
      exact List.forall₂_same.mpr fun _ _ => ⟨rfl, rfl⟩

namespace Database

variable {db : Database}

theorem idOf?_congr {other : Database} (keys : db.classes.keys = other.classes.keys) :
    db.idOf? = other.idOf? := by
  funext name
  rw [idOf?, idOf?, OrderedMap.position?_eq, OrderedMap.position?_eq, keys]

/-- A definition takes no name away. -/
theorem idOf?_define {name : String} {id : ClassId} (known : db.idOf? name = some id)
    (entity : EntityClass) : (db.define entity).idOf? name = some id := by
  obtain ⟨i, found, rfl⟩ := Option.map_eq_some_iff.mp known
  rw [OrderedMap.position?_eq_some_iff] at found
  refine Option.map_eq_some_iff.mpr ⟨i, OrderedMap.position?_eq_some_iff.mpr ?_, rfl⟩
  rw [define, OrderedMap.keys_insert]
  split
  · exact found
  · rw [List.getElem?_append_left (List.getElem?_eq_some_iff.mp found).1]
    exact found

/-- Whether or not a database is linked before a class is defined in it, linking it afterwards
has the same outcome; and if it succeeds, it leaves the same database. -/
theorem linkBases_define_linkBases (db : Database) (entity : EntityClass) :
    (db.linkBases.1.define entity).linkBases.2 = (db.define entity).linkBases.2 ∧
      ((db.define entity).linkBases.2 = none →
        (db.linkBases.1.define entity).linkBases.1 = (db.define entity).linkBases.1) := by
  have more : ∀ name id, db.idOf? name = some id → (db.define entity).idOf? name = some id :=
    fun name id known => idOf?_define known entity
  have before : List.Forall₂ (LinkedAlike (db.define entity).idOf?)
      db.linkBases.1.classes.toList db.classes.toList := by
    rw [db.linkBases_eq_linkRow.1]
    exact linkedAlike_linkRow more _
  have after : List.Forall₂ (LinkedAlike (db.define entity).idOf?)
      (db.linkBases.1.define entity).classes.toList (db.define entity).classes.toList :=
    OrderedMap.forall₂_insert before (fun _ _ alike => alike.1) ⟨rfl, rfl⟩
  have names : (db.linkBases.1.define entity).idOf? = (db.define entity).idOf? :=
    idOf?_congr (OrderedMap.keys_eq_of_forall₂ after fun _ _ alike => alike.1)
  obtain ⟨earlyRow, earlyProblem⟩ := (db.linkBases.1.define entity).linkBases_eq_linkRow
  obtain ⟨row, problem⟩ := (db.define entity).linkBases_eq_linkRow
  obtain ⟨sameProblem, sameRow⟩ := linkRow_congr after
  rw [names] at earlyRow earlyProblem
  refine ⟨by rw [earlyProblem, sameProblem, problem], fun clear => ?_⟩
  have classes : (db.linkBases.1.define entity).linkBases.1.classes =
      (db.define entity).linkBases.1.classes := by
    apply OrderedMap.ext_toList
    rw [earlyRow, sameRow (problem.symm.trans clear), row]
  have rest : db.linkBases.1 = { db with classes := db.linkBases.1.classes } := db.linkFrom_rest 0
  rw [linkBases, linkFrom_rest, ← linkBases, classes, define, rest]
  exact ((db.define entity).linkFrom_rest 0).symm

namespace Late

def child : EntityClass := { EntityClass.plain .point "Child" with bases := [.named "parent"] }

def parent : EntityClass := .plain .base "Parent"

/-- A class whose base has yet to come. -/
def database : Database :=
  { Database.empty with classes := .ofDistinct [("child", child)] (by decide) }

theorem problem_database : database.linkBases.2 = some (.unknownBase "parent" "Child") := by
  have failed : child.linkBases database.idOf? = .error (.unknownBase "parent" "Child") := by
    refine EntityClass.linkBases_eq_error_iff.mpr ⟨[], "parent", [], rfl, nofun, ?_, rfl⟩
    rw [idOf?, OrderedMap.position?_eq]
    decide
  rw [database.linkBases_eq_linkRow.2]
  change (linkRow database.idOf? [("child", child)]).2 = _
  rw [linkRow_of_error failed]

/-- Once the base is there, linking succeeds. -/
theorem clear_define : (database.define parent).linkBases.2 = none := by
  have fresh : fold parent.name ∉ database.classes.keys := by decide
  have classes : (database.define parent).classes.toList =
      [("child", child), ("parent", parent)] := OrderedMap.toList_insert_of_not_mem fresh parent
  rw [linkBases_clear_iff, OrderedMap.values, OrderedMap.keys, classes]
  intro entity member
  simp only [List.map_cons, List.map_nil, List.mem_cons, List.not_mem_nil, or_false] at member
  rcases member with rfl | rfl <;> decide

end Late

/-- The first linking fails for want of a class that is defined after it. -/
theorem linkBases_define_linkBases_late :
    Late.database.linkBases.2 = some (.unknownBase "parent" "Child") ∧
      (Late.database.linkBases.1.define Late.parent).linkBases.2 = none ∧
      (Late.database.linkBases.1.define Late.parent).linkBases.1 =
        (Late.database.define Late.parent).linkBases.1 := by
  obtain ⟨outcome, same⟩ := linkBases_define_linkBases Late.database Late.parent
  exact ⟨Late.problem_database, outcome.trans Late.clear_define, same Late.clear_define⟩

end Database
end EntitySchema
