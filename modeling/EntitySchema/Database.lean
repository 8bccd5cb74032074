import EntitySchema.EntityClass

/-! Databases of entity classes, possibly read from many files. Classes are stored
under their folded names and never removed, so the position of a class serves as
its number; redefining a class keeps it. -/
namespace EntitySchema

structure Database where
  classes : OrderedMap EntityClass
  mapMin : Int64
  mapMax : Int64
  /-- The identities of the files read so far, each once, in order. -/
  files : List String

namespace Database

def empty : Database := ⟨∅, 0, 0, []⟩

instance : EmptyCollection Database := ⟨empty⟩

instance : Inhabited Database := ⟨empty⟩

def size (db : Database) : Nat := db.classes.size

/-- Adds a class, or replaces the one of the same folded name. -/
def define (db : Database) (entity : EntityClass) : Database :=
  { db with classes := db.classes.insert (fold entity.name) entity }

def idOf? (db : Database) (name : String) : Option ClassId :=
  (db.classes.position? (fold name)).map Nat.toUInt32

def classAt? (db : Database) (id : ClassId) : Option EntityClass :=
  (db.classes.entryAt? id.toNat).map Prod.snd

def find? (db : Database) (name : String) : Option EntityClass :=
  db.classes.get? (fold name)

def contains (db : Database) (name : String) : Bool :=
  db.classes.contains (fold name)

def modify (db : Database) (name : String) (change : EntityClass → EntityClass) : Database :=
  { db with classes := db.classes.modify (fold name) change }

def setMapSize (db : Database) (low high : Int64) : Database :=
  { db with mapMin := low, mapMax := high }

def hasFile (db : Database) (identity : String) : Bool := db.files.contains identity

/-- Records that a file is being read; files already recorded are not repeated. -/
def beginFile (db : Database) (identity : String) : Database :=
  if db.hasFile identity then db else { db with files := db.files ++ [identity] }

/-- Links the bases of the classes from position `i` on, class by class, and stops
at the first class with an unknown base. -/
def linkFrom (db : Database) (i : Nat) : Database × Option SemanticProblem :=
  if h : i < db.classes.entries.size then
    match db.classes.entries[i].2.linkBases db.idOf? with
    | .ok entity =>
      { db with classes := db.classes.setAt i entity }.linkFrom (i + 1)
    | .error problem => (db, some problem)
  else (db, none)
termination_by db.classes.entries.size - i
decreasing_by
  simp only [OrderedMap.setAt, h, dite_true, Array.size_set]
  omega

/-- Links every base name to the class it names. On an unknown name, the classes
before the one that uses it stay linked. -/
def linkBases (db : Database) : Database × Option SemanticProblem := db.linkFrom 0

end Database
end EntitySchema
