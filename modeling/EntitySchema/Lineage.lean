import EntitySchema.Database

/-! The lineage of a class: the class itself and everything it inherits from, in
depth-first order of declaration. No class is visited twice, so cyclic inheritance
does no harm, and names that are not linked yet lead nowhere. -/
namespace EntitySchema

/-- The numbers of the bases that have been linked, in order. -/
def EntityClass.links (entity : EntityClass) : List ClassId :=
  entity.bases.filterMap fun base =>
    match base with
    | .linked id => some id
    | .named _ => none

namespace Database

/-- The positions of a database whose classes are not among those seen. -/
def unseen (db : Database) (seen : List ClassId) : List Nat :=
  (List.range db.size).filter fun i => i.toUInt32 ∉ seen

theorem lt_size_of_classAt? {db : Database} {id : ClassId} {entity : EntityClass}
    (known : db.classAt? id = some entity) : id.toNat < db.size := by
  simp only [classAt?, OrderedMap.entryAt?, Option.map_eq_some_iff] at known
  obtain ⟨entry, found, _⟩ := known
  exact (Array.getElem?_eq_some_iff.mp found).1

theorem length_unseen_cons_lt {db : Database} {seen : List ClassId} {id : ClassId}
    {entity : EntityClass} (known : db.classAt? id = some entity) (fresh : id ∉ seen) :
    (db.unseen (id :: seen)).length < (db.unseen seen).length := by
  have narrower : db.unseen (id :: seen) = (db.unseen seen).filter fun i => i.toUInt32 ≠ id := by
    rw [unseen, unseen, List.filter_filter]
    apply List.filter_congr
    intro i _
    by_cases same : i.toUInt32 = id <;> simp [same]
  rw [narrower, List.length_filter_lt_length_iff_exists]
  refine ⟨id.toNat, ?_, by simp⟩
  simp [unseen, lt_size_of_classAt? known, fresh]

/-- Continues a walk that has seen some classes, last one first, and has others
still to visit. -/
def lineageFrom (db : Database) (seen : List ClassId) : List ClassId → List ClassId
  | [] => seen.reverse
  | id :: rest =>
    if _ : id ∉ seen then
      match _ : db.classAt? id with
      | some entity => db.lineageFrom (id :: seen) (entity.links ++ rest)
      | none => db.lineageFrom seen rest
    else db.lineageFrom seen rest
termination_by waiting => ((db.unseen seen).length, waiting.length)
decreasing_by
  · exact Prod.Lex.left _ _ (length_unseen_cons_lt ‹_› ‹_›)
  · exact Prod.Lex.right _ (by simp)
  · exact Prod.Lex.right _ (by simp)

/-- A class and everything it inherits from, each once. -/
def lineage (db : Database) (id : ClassId) : List ClassId := db.lineageFrom [] [id]

/-- The definitions along the lineage of a class. -/
def ancestry (db : Database) (id : ClassId) : List EntityClass :=
  (db.lineage id).filterMap db.classAt?

/-- Whether a class is, or inherits from, one of the given name. -/
def isA (db : Database) (id : ClassId) (name : String) : Bool :=
  (db.ancestry id).any fun entity => fold entity.name == fold name

/-- The direct bases of a class that are linked to a class. -/
def basesOf (db : Database) (entity : EntityClass) : List ClassId :=
  entity.links.filter fun id => (db.classAt? id).isSome

/-- The names of the direct bases of a class, those of linked ones as declared. -/
def baseNames (db : Database) (entity : EntityClass) : List String :=
  entity.bases.filterMap fun base =>
    match base with
    | .linked id => (db.classAt? id).map (·.name)
    | .named name => some name

end Database
end EntitySchema
