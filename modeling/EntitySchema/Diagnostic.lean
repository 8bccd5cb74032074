import EntitySchema.MergedView
import EntitySchema.Text.Visible

/-! Short forms of classes and views for diagnostics. Texts are quoted so that two
that differ also look different. -/
namespace EntitySchema

def listed (texts : List String) : String := "[" ++ ", ".intercalate (texts.map visibly) ++ "]"

/-- A view by its keys. -/
def MergedView.diagnostic {α : Type} (view : MergedView α) : String := listed view.keys

/-- A class by its number and name. -/
def EntityClass.diagnostic (id : ClassId) (entity : EntityClass) : String :=
  "EntityRef \x7b id: EntityId(" ++ toString id.toNat ++ "), classname: " ++
    visibly entity.name ++ " \x7d"

end EntitySchema
