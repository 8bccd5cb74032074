import EntitySchema.Lineage
import Std.Data.HashSet

/-! Members of a class together with those it inherits. A view is a stack of
member maps, nearest class first; of two members with the same key, the nearer
one hides the other. -/
namespace EntitySchema

structure MergedView (α : Type) where
  layers : List (OrderedMap α)

namespace MergedView

variable {α : Type}

/-- Keeps the first entry of each key, given the keys already kept. Kept entries
are collected in reverse. -/
def firstsFrom (seen : Std.HashSet String) (kept : List (String × α)) :
    List (String × α) → List (String × α)
  | [] => kept.reverse
  | entry :: rest =>
    if seen.contains entry.1 then firstsFrom seen kept rest
    else firstsFrom (seen.insert entry.1) (entry :: kept) rest

/-- The visible members with their keys: those of the nearest class first, each
class in its own order. -/
def entries (view : MergedView α) : List (String × α) :=
  firstsFrom ∅ [] (view.layers.flatMap OrderedMap.toList)

def keys (view : MergedView α) : List String := view.entries.map Prod.fst

def members (view : MergedView α) : List α := view.entries.map Prod.snd

def length (view : MergedView α) : Nat := view.entries.length

def isEmpty (view : MergedView α) : Bool := view.layers.all OrderedMap.isEmpty

/-- The visible member of a name, whatever its case. -/
def get? (view : MergedView α) (name : String) : Option α :=
  view.layers.findSome? fun layer => layer.get? (fold name)

def contains (view : MergedView α) (name : String) : Bool := (view.get? name).isSome

end MergedView

namespace Database

def keyValuesOf (db : Database) (id : ClassId) : MergedView KeyValue :=
  ⟨(db.ancestry id).map (·.keyValues)⟩

def inputsOf (db : Database) (id : ClassId) : MergedView Signal :=
  ⟨(db.ancestry id).map (·.inputs)⟩

def outputsOf (db : Database) (id : ClassId) : MergedView Signal :=
  ⟨(db.ancestry id).map (·.outputs)⟩

end Database
end EntitySchema
