import EntitySchema.Proofs.WellFormed
import Mathlib.Logic.Relation

/-! The lineage of a class as the classes that can be reached along links to bases. The
walk is a recursion that passes what it has seen from one base to the next. It comes to an
end on every database, because it enters no class twice; and whatever a class that it has
left links to, it has been to as well. -/
namespace EntitySchema.Database

open Relation

variable {db : Database} {id base other : ClassId} {seen waiting middle rest after : List ClassId}
  {entity : EntityClass}

/-- A class has a linked base that is a class of the database. -/
def Inherits (db : Database) (id base : ClassId) : Prop :=
  ∃ entity, db.classAt? id = some entity ∧ .linked base ∈ entity.bases ∧
    (db.classAt? base).isSome

/-- A class is another one or inherits from it, at first or at second hand. -/
abbrev Reaches (db : Database) : ClassId → ClassId → Prop := ReflTransGen db.Inherits

theorem inherits_iff (known : db.classAt? id = some entity) :
    db.Inherits id base ↔ base ∈ entity.links ∧ (db.classAt? base).isSome := by
  rw [EntityClass.mem_links]
  constructor
  · rintro ⟨definition, found, linked, defined⟩
    cases known.symm.trans found
    exact ⟨linked, defined⟩
  · rintro ⟨linked, defined⟩
    exact ⟨entity, known, linked, defined⟩

/-- Walking through a row of classes one after the other, each followed by its linked
bases, from the classes seen before to all that have been seen after it. -/
inductive Walks (db : Database) : List ClassId → List ClassId → List ClassId → Prop
  | done {seen : List ClassId} : Walks db seen [] seen
  | missing {id : ClassId} {seen rest after : List ClassId} :
      db.classAt? id = none → Walks db seen rest after → Walks db seen (id :: rest) after
  | known {id : ClassId} {seen rest after : List ClassId} :
      id ∈ seen → Walks db seen rest after → Walks db seen (id :: rest) after
  | entered {id : ClassId} {entity : EntityClass} {seen middle rest after : List ClassId} :
      id ∉ seen → db.classAt? id = some entity → Walks db (seen ++ [id]) entity.links middle →
      Walks db middle rest after → Walks db seen (id :: rest) after

namespace Walks

theorem split {front back : List ClassId} (walk : db.Walks seen (front ++ back) after) :
    ∃ middle, db.Walks seen front middle ∧ db.Walks middle back after := by
  induction front generalizing seen with
  | nil => exact ⟨seen, .done, walk⟩
  | cons id front ih =>
    cases walk with
    | missing absent rest =>
      obtain ⟨middle, first, last⟩ := ih rest
      exact ⟨middle, .missing absent first, last⟩
    | known old rest =>
      obtain ⟨middle, first, last⟩ := ih rest
      exact ⟨middle, .known old first, last⟩
    | entered fresh found inside rest =>
      obtain ⟨middle, first, last⟩ := ih rest
      exact ⟨middle, .entered fresh found inside first, last⟩

/-- The walk that keeps a list of what waits does the same, whatever waits behind. -/
theorem lineageFrom_append (walk : db.Walks seen waiting after) (behind : List ClassId) :
    db.lineageFrom seen.reverse (waiting ++ behind) = db.lineageFrom after.reverse behind := by
  induction walk generalizing behind with
  | done => rfl
  | @missing id seen rest after absent _ ih =>
    rw [List.cons_append, lineageFrom]
    split
    · split
      · rename_i found
        cases absent.symm.trans found
      · exact ih behind
    · exact ih behind
  | @known id seen rest after old _ ih =>
    rw [List.cons_append, lineageFrom, dif_neg (by simpa using old)]
    exact ih behind
  | @entered id entity seen middle rest after fresh found _ _ inside last =>
    rw [List.cons_append, lineageFrom, dif_pos (by simpa using fresh)]
    split
    · rename_i definition same
      cases found.symm.trans same
      have entered := inside (rest ++ behind)
      rw [List.reverse_append, List.reverse_singleton, List.singleton_append] at entered
      rw [entered, last]
    · rename_i absent
      cases found.symm.trans absent

/-- Classes are kept in the order in which they are seen. -/
theorem begins (walk : db.Walks seen waiting after) : seen <+: after := by
  induction walk with
  | done => exact List.prefix_refl _
  | missing _ _ ih | known _ _ ih => exact ih
  | entered _ _ _ _ inside last => exact (List.prefix_append _ _).trans (inside.trans last)

theorem mem_of_seen (walk : db.Walks seen waiting after) (old : id ∈ seen) : id ∈ after :=
  walk.begins.subset old

theorem nodup (walk : db.Walks seen waiting after) (distinct : seen.Nodup) : after.Nodup := by
  induction walk with
  | done => exact distinct
  | missing _ _ ih | known _ _ ih => exact ih distinct
  | entered fresh _ _ _ inside last =>
    rw [← List.concat_eq_append] at inside
    exact last (inside (distinct.concat fresh))

/-- What a walk adds can be reached from a class of the row. -/
theorem reaches_of_mem (walk : db.Walks seen waiting after) (member : other ∈ after) :
    other ∈ seen ∨ ∃ id ∈ waiting, (db.classAt? id).isSome ∧ db.Reaches id other := by
  induction walk with
  | done => exact Or.inl member
  | missing _ _ ih | known _ _ ih =>
    rcases ih member with old | ⟨start, waits, reached⟩
    · exact Or.inl old
    · exact Or.inr ⟨start, List.mem_cons_of_mem _ waits, reached⟩
  | @entered id entity _ _ _ _ _ found _ _ inside last =>
    rcases last member with visited | ⟨start, waits, reached⟩
    · have some : (db.classAt? id).isSome := by rw [found]; rfl
      rcases inside visited with old | ⟨base, linked, defined, reached⟩
      · rcases List.mem_append.mp old with old | new
        · exact Or.inl old
        · cases List.mem_singleton.mp new
          exact Or.inr ⟨_, List.mem_cons_self, some, .refl⟩
      · have step := (inherits_iff found).mpr ⟨linked, defined⟩
        exact Or.inr ⟨_, List.mem_cons_self, some, .head step reached⟩
    · exact Or.inr ⟨start, List.mem_cons_of_mem _ waits, reached⟩

theorem mem_of_waiting (walk : db.Walks seen waiting after) (waits : id ∈ waiting)
    (defined : (db.classAt? id).isSome) : id ∈ after := by
  induction walk with
  | done => cases waits
  | missing absent _ ih =>
    rcases List.mem_cons.mp waits with rfl | later
    · simp [absent] at defined
    · exact ih later
  | known old walk ih =>
    rcases List.mem_cons.mp waits with rfl | later
    · exact walk.mem_of_seen old
    · exact ih later
  | entered _ _ inside walk _ last =>
    rcases List.mem_cons.mp waits with rfl | later
    · exact walk.mem_of_seen (inside.mem_of_seen (by simp))
    · exact last later

/-- A class that a walk has entered is left only after all its bases have been seen. -/
theorem mem_of_inherits (walk : db.Walks seen waiting after) (member : id ∈ after)
    (fresh : id ∉ seen) (step : db.Inherits id base) : base ∈ after := by
  induction walk with
  | done => exact absurd member fresh
  | missing _ _ ih | known _ _ ih => exact ih member fresh
  | @entered entered entity seen middle _ _ _ found inside walk within last =>
    by_cases visited : id ∈ middle
    -- the class was entered just now, or below the one that was
    · apply walk.mem_of_seen
      by_cases old : id ∈ seen ++ [entered]
      · rcases List.mem_append.mp old with old | new
        · exact absurd old fresh
        · cases List.mem_singleton.mp new
          obtain ⟨linked, defined⟩ := (inherits_iff found).mp step
          exact inside.mem_of_waiting linked defined
      · exact within visited old
    · exact last member visited

end Walks

/-- The walk comes to an end, and so it does whatever has been seen before. -/
theorem walks_lineageFrom (db : Database) (seen waiting : List ClassId) :
    db.Walks seen.reverse waiting (db.lineageFrom seen waiting) := by
  fun_induction db.lineageFrom seen waiting with
  | case1 seen => exact .done
  | case2 seen id rest fresh entity found ih =>
    obtain ⟨middle, inside, last⟩ := ih.split
    rw [List.reverse_cons] at inside
    exact .entered (by simpa using fresh) found inside last
  | case3 seen id rest fresh absent ih => exact .missing absent ih
  | case4 seen id rest old ih => exact .known (by simpa using old) ih

theorem walks_lineage (db : Database) (id : ClassId) : db.Walks [] [id] (db.lineage id) :=
  db.walks_lineageFrom [] [id]

theorem Walks.eq_lineage (walk : db.Walks [] [id] after) : after = db.lineage id := by
  have same := walk.lineageFrom_append []
  rw [List.append_nil, List.reverse_nil, lineageFrom, List.reverse_reverse] at same
  exact same.symm

theorem lineage_cons (known : db.classAt? id = some entity) :
    ∃ inherited, db.lineage id = id :: inherited := by
  cases db.walks_lineage id with
  | missing absent _ => cases known.symm.trans absent
  | known old _ => cases old
  | entered _ _ inside last =>
    obtain ⟨inherited, same⟩ := inside.begins.trans last.begins
    exact ⟨inherited, same.symm⟩

theorem mem_lineage_iff (known : db.classAt? id = some entity) :
    other ∈ db.lineage id ↔ db.Reaches id other := by
  have walk := db.walks_lineage id
  constructor
  · intro member
    rcases walk.reaches_of_mem member with none | ⟨start, waits, -, reached⟩
    · cases none
    · cases List.mem_singleton.mp waits
      exact reached
  · intro reached
    induction reached with
    | refl => exact walk.mem_of_waiting List.mem_cons_self (by rw [known]; rfl)
    | tail _ step ih => exact walk.mem_of_inherits ih List.not_mem_nil step

theorem isA_iff {name : String} : db.isA id name = true ↔
    ∃ other ∈ db.lineage id, ∃ entity, db.classAt? other = some entity ∧
      fold entity.name = fold name := by
  simp only [isA, ancestry, List.any_eq_true, List.mem_filterMap, beq_iff_eq]
  constructor
  · rintro ⟨entity, ⟨other, member, found⟩, same⟩
    exact ⟨other, member, entity, found, same⟩
  · rintro ⟨other, member, entity, found, same⟩
    exact ⟨entity, ⟨other, member, found⟩, same⟩

/-- On every database, with any links, the recursive walk from a class ends, in one way: with
the lineage of the class. That begins with the class and lists each class once that the
class is or inherits from, and no other. -/
theorem lineage_lists_reachable (known : db.classAt? id = some entity) :
    (∀ row, db.Walks [] [id] row ↔ row = db.lineage id) ∧
      (db.lineage id).head? = some id ∧ (db.lineage id).Nodup ∧
      (∀ other, other ∈ db.lineage id ↔ db.Reaches id other) ∧
      ∀ name, db.isA id name = true ↔ ∃ other definition, db.Reaches id other ∧
        db.classAt? other = some definition ∧ fold definition.name = fold name := by
  have walk := db.walks_lineage id
  refine ⟨fun row => ⟨Walks.eq_lineage, ?_⟩, ?_, walk.nodup List.nodup_nil,
    fun other => mem_lineage_iff known, fun name => ?_⟩
  · rintro rfl
    exact walk
  · obtain ⟨inherited, same⟩ := lineage_cons known
    rw [same, List.head?_cons]
  · simp only [isA_iff, mem_lineage_iff known]
    constructor
    · rintro ⟨other, reached, definition, found, same⟩
      exact ⟨other, definition, reached, found, same⟩
    · rintro ⟨other, definition, reached, found, same⟩
      exact ⟨other, reached, definition, found, same⟩

namespace Mutual

def health (initial : String) : KeyValue := { KeyValue.plain "Health" .integer with initial }

def only (keyValue : KeyValue) : OrderedMap KeyValue := .ofDistinct [("health", keyValue)] (by simp)

def a : EntityClass :=
  { EntityClass.plain .base "A" with
    bases := [.named "b", .linked 7, .linked 0, .linked 1], keyValues := only (health "100") }

def b : EntityClass :=
  { EntityClass.plain .base "B" with bases := [.linked 0], keyValues := only (health "10") }

/-- Two classes that inherit from each other, and one from itself; further bases wait or
are linked to no class. -/
def database : Database :=
  ⟨.ofDistinct [("a", a), ("b", b)] (by decide), 0, 0, []⟩

end Mutual

theorem lineage_lists_reachable_mutual :
    Mutual.database.classAt? 0 = some Mutual.a ∧ (Mutual.database.lineage 0).head? = some 0 ∧
      (Mutual.database.lineage 0).Nodup ∧ 1 ∈ Mutual.database.lineage 0 ∧
      Mutual.database.isA 0 "b" = true := by
  have known : Mutual.database.classAt? 0 = some Mutual.a := rfl
  obtain ⟨-, first, distinct, exact_, isA⟩ := lineage_lists_reachable known
  have step : Mutual.database.Inherits 0 1 := ⟨Mutual.a, rfl, by simp [Mutual.a], rfl⟩
  refine ⟨known, first, distinct, (exact_ 1).mpr (.single step), ?_⟩
  exact (isA "b").mpr ⟨1, Mutual.b, .single step, rfl, by decide⟩

end EntitySchema.Database
