import EntitySchema.Database

/-! When two databases hold the same. Maps and the files read are compared without
regard to order, lists with it. -/
namespace EntitySchema

/-- Whether two maps have the same keys with values that are alike. -/
def OrderedMap.agrees {α : Type} (alike : α → α → Bool) (a b : OrderedMap α) : Bool :=
  a.size == b.size && a.toList.all fun entry => (b.get? entry.1).any (alike entry.2)

def EntityClass.agrees (a b : EntityClass) : Bool :=
  a.category == b.category && a.name == b.name && a.bases == b.bases &&
    a.keyValues.agrees (· == ·) b.keyValues && a.inputs.agrees (· == ·) b.inputs &&
    a.outputs.agrees (· == ·) b.outputs && a.helpers == b.helpers &&
    a.description == b.description

/-- Files are recorded once each, so that equally many of them are the same if one
database has all those of the other. -/
def Database.agrees (a b : Database) : Bool :=
  a.classes.agrees EntityClass.agrees b.classes && a.mapMin == b.mapMin && a.mapMax == b.mapMax &&
    a.files.length == b.files.length && a.files.all b.hasFile

end EntitySchema
