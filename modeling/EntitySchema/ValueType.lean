import EntitySchema.Text.Blank
import EntitySchema.Text.Lowercase

/-! The types of keyvalues and of input and output parameters. Their order is
the order in which the compact format numbers them. -/
namespace EntitySchema

inductive ValueType where
  | void | choices | flags | string | boolean | integer | float | vector | angles
  | targetDestination | targetNameOrClass | targetSource | npcClass | pointEntityClass
  | filterClass | nodeDestination | nodeId | scene | sound | particleSystem | sprite | decal
  | material | model | scriptList | angleNegativePitch | vectorLine | origin | axis | color1
  | color255 | sideList | instanceFile | instanceParameter | instanceVariable
  deriving DecidableEq, Repr, Inhabited

namespace ValueType

/-- Every type, in numbering order. -/
def all : List ValueType := [
  .void, .choices, .flags, .string, .boolean, .integer, .float, .vector, .angles,
  .targetDestination, .targetNameOrClass, .targetSource, .npcClass, .pointEntityClass,
  .filterClass, .nodeDestination, .nodeId, .scene, .sound, .particleSystem, .sprite, .decal,
  .material, .model, .scriptList, .angleNegativePitch, .vectorLine, .origin, .axis, .color1,
  .color255, .sideList, .instanceFile, .instanceParameter, .instanceVariable]

def keyword : ValueType → String
  | .void => "void"
  | .choices => "choices"
  | .flags => "flags"
  | .string => "string"
  | .boolean => "boolean"
  | .integer => "integer"
  | .float => "float"
  | .vector => "vector"
  | .angles => "angle"
  | .targetDestination => "target_destination"
  | .targetNameOrClass => "target_name_or_class"
  | .targetSource => "target_source"
  | .npcClass => "npcclass"
  | .pointEntityClass => "pointentityclass"
  | .filterClass => "filterclass"
  | .nodeDestination => "node_dest"
  | .nodeId => "node_id"
  | .scene => "scene"
  | .sound => "sound"
  | .particleSystem => "particlesystem"
  | .sprite => "sprite"
  | .decal => "decal"
  | .material => "material"
  | .model => "studio"
  | .scriptList => "scriptlist"
  | .angleNegativePitch => "angle_negative_pitch"
  | .vectorLine => "vecline"
  | .origin => "origin"
  | .axis => "axis"
  | .color1 => "color1"
  | .color255 => "color255"
  | .sideList => "sidelist"
  | .instanceFile => "instance_file"
  | .instanceParameter => "instance_parm"
  | .instanceVariable => "instance_variable"

/-- The type a keyword names, whatever its case. Two short forms are accepted. -/
def ofKeyword? (text : String) : Option ValueType :=
  match fold (trimmed text) with
  | "bool" => some .boolean
  | "int" => some .integer
  | name => all.find? (·.keyword == name)

/-- Choices and flags come with a list of values. -/
def hasList : ValueType → Bool
  | .choices | .flags => true
  | _ => false

def index (type : ValueType) : Nat := type.ctorIdx

def ofIndex? (i : Nat) : Option ValueType := all[i]?

theorem ofIndex?_index (type : ValueType) : ofIndex? type.index = some type := by
  cases type <;> rfl

theorem index_lt (type : ValueType) : type.index < 35 := by
  cases type <;> decide

end ValueType
end EntitySchema
