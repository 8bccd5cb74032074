import EntitySchema.Text.Blank
import EntitySchema.Text.Lowercase

/-! The kinds of entity a class block declares, numbered in the order listed. -/
namespace EntitySchema

inductive Category where
  /-- Not placeable; other classes inherit from it. -/
  | base
  | point | solid | keyframe | move | filter | npc
  deriving DecidableEq, Repr, Inhabited

namespace Category

/-- Every category, in numbering order. -/
def all : List Category := [.base, .point, .solid, .keyframe, .move, .filter, .npc]

def keyword : Category → String
  | .base => "baseclass"
  | .point => "pointclass"
  | .solid => "solidclass"
  | .keyframe => "keyframeclass"
  | .move => "moveclass"
  | .filter => "filterclass"
  | .npc => "npcclass"

/-- The category a keyword names, whatever its case. -/
def ofKeyword? (text : String) : Option Category :=
  all.find? (·.keyword == fold (trimmed text))

def index (category : Category) : Nat := category.ctorIdx

def ofIndex? (i : Nat) : Option Category := all[i]?

theorem ofIndex?_index (category : Category) : ofIndex? category.index = some category := by
  cases category <;> rfl

end Category
end EntitySchema
