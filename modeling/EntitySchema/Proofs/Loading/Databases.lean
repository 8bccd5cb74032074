import EntitySchema.Proofs.Linking
import EntitySchema.Proofs.Loading.Classes

/-! Well-formed databases. Bases wait under distinct folded names until they are linked,
all bases of a class at once, to as many different classes; defining further classes
moves none of those that are there. -/
namespace EntitySchema

namespace EntityClass

variable {entity : EntityClass}

/-- What linking makes of a class all of whose bases wait, or all of whose bases are
linked. -/
theorem linksApart_of_links {db : Database} {bases : List Base} (wellFormed : entity.WellFormed)
    (unmixed : entity.names = [] ∨ entity.links = []) (apart : entity.LinksApart db.size)
    (links : List.Forall₂ (Base.Links db.idOf?) entity.bases bases) :
    { entity with bases }.LinksApart db.size := by
  rcases unmixed with known | unlinked
  · have linked : ∀ base ∈ entity.bases, ∃ id, base = .linked id := by
      intro base inside
      cases base with
      | named name => exact absurd (mem_names.mpr inside) (by simp [known])
      | linked id => exact ⟨id, rfl⟩
    have same := bases_eq_of_linked entity linked
    rw [same] at links
    rw [eq_of_links links, ← same]
    exact apart
  · exact linksApart_of_unlinked unlinked (fun name waiting => (wellFormed.names name waiting).2)
      wellFormed.distinct links

end EntityClass

namespace Database

variable {db : Database}

/-- A database as it can be loaded. Classes and their members are stored under their folded
names. Linked bases are classes of the database at different positions; they have
different numbers unless there are more classes than numbers of 32 bits. -/
structure WellFormed (db : Database) : Prop where
  keyed : db.classes.KeyedBy EntityClass.name
  classes : ∀ entity ∈ db.classes.values, entity.WellFormed
  apart : ∀ entity ∈ db.classes.values, entity.LinksApart db.size
  inRange : ∀ entity ∈ db.classes.values, ∀ id ∈ entity.links, id.toNat < db.size
  distinct : db.size ≤ UInt32.size → ∀ entity ∈ db.classes.values, entity.links.Nodup

/-- What holds of a database while files are read into it: no class has both bases that
wait and bases that are linked. -/
structure Sound (db : Database) : Prop where
  keyed : db.classes.KeyedBy EntityClass.name
  classes : ∀ entity ∈ db.classes.values, entity.WellFormed
  apart : ∀ entity ∈ db.classes.values, entity.LinksApart db.size
  unmixed : ∀ entity ∈ db.classes.values, entity.names = [] ∨ entity.links = []

namespace Sound

theorem wellFormed (sound : db.Sound) : db.WellFormed where
  keyed := sound.keyed
  classes := sound.classes
  apart := sound.apart
  inRange entity member _ linked := (sound.apart entity member).lt_size linked
  distinct few entity member := (sound.apart entity member).nodup few

theorem empty : Sound ∅ := ⟨.empty, nofun, nofun, nofun⟩

theorem of_classes (sound : db.Sound) {other : Database} (same : other.classes = db.classes) :
    other.Sound := by
  obtain ⟨keyed, classes, apart, unmixed⟩ := sound
  rw [size, ← same] at apart
  rw [← same] at keyed classes unmixed
  exact ⟨keyed, classes, apart, unmixed⟩

theorem define (sound : db.Sound) {entity : EntityClass} (fresh : entity.Fresh) :
    (db.define entity).Sound where
  keyed := sound.keyed.insert entity
  classes := by
    intro other inside
    rcases OrderedMap.mem_values_insert inside with rfl | old
    · exact fresh.wellFormed
    · exact sound.classes other old
  apart := by
    intro other inside
    rcases OrderedMap.mem_values_insert inside with rfl | old
    · exact .of_unlinked fresh.unlinked
    · exact (sound.apart other old).mono (OrderedMap.size_le_size_insert _ _ _)
  unmixed := by
    intro other inside
    rcases OrderedMap.mem_values_insert inside with rfl | old
    · exact Or.inr fresh.unlinked
    · exact sound.unmixed other old

theorem linkBases (sound : db.Sound) : db.linkBases.1.Sound := by
  have each : ∀ key after, (key, after) ∈ db.linkBases.1.classes.toList →
      key = fold after.name ∧ after.WellFormed ∧ after.LinksApart db.size ∧
        (after.names = [] ∨ after.links = []) := by
    intro key after member
    obtain ⟨entity, before, made⟩ := exists_of_linkBases member
    have inside := OrderedMap.mem_values.mpr ⟨key, before⟩
    rcases made with ⟨bases, links, rfl⟩ | ⟨rfl, -⟩
    · have linked := EntityClass.names_of_links links
      refine ⟨sound.keyed _ before, ?_, EntityClass.linksApart_of_links (sound.classes _ inside)
        (sound.unmixed _ inside) (sound.apart _ inside) links, Or.inl linked⟩
      refine (sound.classes _ inside).withBases (fun name waiting => ?_) ?_
      · have known : name ∈ { entity with bases }.names := EntityClass.mem_names.mpr waiting
        rw [linked] at known
        cases known
      · rw [linked]
        exact List.nodup_nil
    · exact ⟨sound.keyed _ before, sound.classes _ inside, sound.apart _ inside,
        sound.unmixed _ inside⟩
  have every : ∀ after ∈ db.linkBases.1.classes.values, after.WellFormed ∧
      after.LinksApart db.size ∧ (after.names = [] ∨ after.links = []) := by
    intro after member
    obtain ⟨key, entry⟩ := OrderedMap.mem_values.mp member
    exact (each key after entry).2
  refine ⟨fun entry member => (each _ _ member).1, fun after member => (every after member).1,
    fun after member => ?_, fun after member => (every after member).2.2⟩
  rw [linkBases_size]
  exact (every after member).2.1

theorem linked_of_clear (clear : db.linkBases.2 = none) :
    ∀ entity ∈ db.linkBases.1.classes.values, ∀ base ∈ entity.bases, ∃ id, base = .linked id := by
  intro after member base inside
  obtain ⟨key, entry⟩ := OrderedMap.mem_values.mp member
  obtain ⟨entity, -, ⟨bases, links, rfl⟩ | ⟨-, problem⟩⟩ := exists_of_linkBases entry
  · obtain ⟨_, -, link⟩ := exists_of_forall₂ links inside
    cases link with
    | linked id => exact ⟨id, rfl⟩
    | named known => exact ⟨_, rfl⟩
  · exact absurd clear problem

end Sound

end Database
end EntitySchema
