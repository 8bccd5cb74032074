import EntitySchema.Category
import EntitySchema.HelperKind
import EntitySchema.ValueType

/-! The names that snapshots use for the alternatives of each enumeration, in the
order in which the alternatives are listed. An alternative may also be given by its
place in that order. -/
namespace EntitySchema.Snapshot

def valueTypeTags : List String := [
  "Void", "Choices", "Flags", "String", "Bool", "Int", "Float", "Vector", "Angles", "TargetDest",
  "TargetDestClass", "TargetSource", "TargetNpcClass", "TargetPointClass", "TargetFilterName",
  "TargetNodeDest", "TargetNodeSource", "Scene", "Sound", "Particle", "Sprite", "Decal",
  "Material", "Model", "ScriptList", "AngleNegativePitch", "VecLine", "Origin", "Axis", "Color1",
  "Color255", "SideList", "InstanceFile", "InstanceParm", "InstanceVariable"]

def categoryTags : List String := ["Base", "Point", "Solid", "Keyframe", "Move", "Filter", "Npc"]

def helperKindTags : List String := [
  "Inherit", "HalfGridSnap", "Size", "BBox", "Color", "Sphere", "Line", "Frustum", "Cylinder",
  "BrushSides", "WireBox", "IconSprite", "Model", "ModelProp", "LightProp", "Sprite", "Instance",
  "Decal", "Overlay", "OverlayTransition", "Light", "LightCone", "Keyframe", "Animator",
  "QuadBounds"]

def baseTags : List String := ["Unresolved", "Resolved"]

def valueListTags : List String := ["Flags", "Choices"]

def valueTypeTag (type : ValueType) : String := valueTypeTags.getD type.index ""

def categoryTag (category : Category) : String := categoryTags.getD category.index ""

def helperKindTag (kind : HelperKind) : String := helperKindTags.getD kind.ctorIdx ""

end EntitySchema.Snapshot
