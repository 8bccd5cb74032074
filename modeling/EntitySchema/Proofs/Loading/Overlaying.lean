import EntitySchema.Proofs.Editing
import EntitySchema.Proofs.Loading.Calls
import EntitySchema.Proofs.Loading.Moving

/-! What a source text makes of the classes that are there already. Nothing that is read goes
by them: the same classes are defined, in the same order, as where there are none. They are laid
over those that were there, which keep their positions. -/
namespace EntitySchema

/-- A database with the classes of another one laid over those of a base. -/
structure Database.Overlays (base top db : Database) : Prop where
  rest : db = { top with classes := db.classes }
  classes : ∀ key, db.classes.get? key = (top.classes.get? key).or (base.classes.get? key)
  keys : base.classes.keys <+: db.classes.keys

namespace Database.Overlays

variable {base top db : Database}

theorem define (overlays : Overlays base top db) (entity : EntityClass) :
    Overlays base (top.define entity) (db.define entity) where
  rest := by rw [overlays.rest]; rfl
  classes key := by
    rw [Database.define, Database.define, OrderedMap.get?_insert, OrderedMap.get?_insert]
    split
    · rfl
    · exact overlays.classes key
  keys := overlays.keys.trans (db.keys_prefix_define entity)

theorem setMapSize (overlays : Overlays base top db) (low high : Int64) :
    Overlays base (top.setMapSize low high) (db.setMapSize low high) where
  rest := by rw [overlays.rest]; rfl
  classes := overlays.classes
  keys := overlays.keys

theorem hasFile (overlays : Overlays base top db) (identity : String) :
    db.hasFile identity = top.hasFile identity := by
  rw [overlays.rest]
  rfl

theorem beginFile (overlays : Overlays base top db) {identity : String}
    (unread : top.hasFile identity = false) :
    Overlays base (top.beginFile identity) (db.beginFile identity) := by
  rw [Source.beginFile_of_unread unread,
    Source.beginFile_of_unread ((overlays.hasFile identity).trans unread)]
  constructor
  · rw [overlays.rest]
  · exact overlays.classes
  · exact overlays.keys

end Database.Overlays

namespace Source

open Database (Overlays)

/-- Outcomes that differ in the classes of a base only. -/
inductive Alongside (base : Database) : EStateM.Result Error Database Unit →
    EStateM.Result Error Database Unit → Prop
  | ok {top db : Database} : Overlays base top db → Alongside base (.ok () top) (.ok () db)
  | error {error : Error} {top db : Database} :
      Overlays base top db → Alongside base (.error error top) (.error error db)

/-- Reading that does not go by the classes that are there. -/
def Blind (base : Database) (loading : Loading Unit) : Prop :=
  ∀ top db, Overlays base top db → Alongside base (loading top) (loading db)

theorem Blind.leaves {base top db : Database} {loading : Loading Unit}
    (blind : Blind base loading) (overlays : Overlays base top db) :
    Overlays base (loading.leaves top) (loading.leaves db) := by
  have alongside := blind top db overlays
  rw [Loading.leaves, Loading.leaves]
  generalize loading top = result, loading db = other at alongside
  cases alongside with
  | ok overlays => exact overlays
  | error overlays => exact overlays

end Source
end EntitySchema
