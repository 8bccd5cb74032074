import EntitySchema.Text.Blank
import EntitySchema.Text.Lowercase

/-! Helpers that may stand in the header of a class block. All but the first tell
an editor how to draw the entity. -/
namespace EntitySchema

inductive HelperKind where
  /-- Names the classes to inherit from. -/
  | inherit
  | halfGridSnap | size | boundingBox | color | sphere | line | frustum | cylinder | brushSides
  | wireBox | iconSprite | model | propModel | lightProp | sprite | instancePreview | decal
  | overlay | overlayTransition | light | lightCone | keyframe | animator | quadBounds
  deriving DecidableEq, Repr, Inhabited

namespace HelperKind

def all : List HelperKind := [
  .inherit, .halfGridSnap, .size, .boundingBox, .color, .sphere, .line, .frustum, .cylinder,
  .brushSides, .wireBox, .iconSprite, .model, .propModel, .lightProp, .sprite, .instancePreview,
  .decal, .overlay, .overlayTransition, .light, .lightCone, .keyframe, .animator, .quadBounds]

def keyword : HelperKind → String
  | .inherit => "base"
  | .halfGridSnap => "halfgridsnap"
  | .size => "size"
  | .boundingBox => "bbox"
  | .color => "color"
  | .sphere => "sphere"
  | .line => "line"
  | .frustum => "frustum"
  | .cylinder => "cylinder"
  | .brushSides => "sidelist"
  | .wireBox => "wirebox"
  | .iconSprite => "iconsprite"
  | .model => "studio"
  | .propModel => "studioprop"
  | .lightProp => "lightprop"
  | .sprite => "sprite"
  | .instancePreview => "instance"
  | .decal => "decal"
  | .overlay => "overlay"
  | .overlayTransition => "overlay_transition"
  | .light => "light"
  | .lightCone => "lightcone"
  | .keyframe => "keyframe"
  | .animator => "animator"
  | .quadBounds => "quadbounds"

/-- The helper a keyword names, whatever its case. -/
def ofKeyword? (text : String) : Option HelperKind :=
  all.find? (·.keyword == fold (trimmed text))

end HelperKind
end EntitySchema
