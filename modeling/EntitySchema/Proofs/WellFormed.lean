import EntitySchema.Lineage
import EntitySchema.Proofs.Folding
import EntitySchema.Proofs.OrderedMap

/-! Well-formed classes and databases: everything is stored under its folded name, value
lists have the shape their types require, and bases are names in canonical form or
numbers of classes. -/
namespace EntitySchema

namespace OrderedMap

variable {α : Type} {name : α → String} {map : OrderedMap α}

/-- Every value is stored under its folded name. -/
def KeyedBy (name : α → String) (map : OrderedMap α) : Prop :=
  ∀ entry ∈ map.toList, entry.1 = fold (name entry.2)

namespace KeyedBy

theorem empty : KeyedBy name (∅ : OrderedMap α) := fun _ member => by cases member

theorem insert (keyed : map.KeyedBy name) (value : α) :
    (map.insert (fold (name value)) value).KeyedBy name := by
  intro entry member
  rcases mem_toList_insert member with rfl | old
  · rfl
  · exact keyed entry old

/-- Inserting the values of a map under their folded names builds the map again. -/
theorem foldl_insert_values (keyed : map.KeyedBy name) :
    map.values.foldl (fun map value => map.insert (fold (name value)) value) ∅ = map := by
  rw [values, List.foldl_map]
  have same : map.toList.foldl (fun map entry => map.insert (fold (name entry.2)) entry.2) ∅ =
      ofList map.toList := by
    rw [ofList]
    apply List.foldl_ext
    intro before entry member
    rw [keyed entry member]
  rw [same, ofList_toList]

theorem mapValues {f : α → α} (keyed : map.KeyedBy name)
    (kept : ∀ value ∈ map.values, name (f value) = name value) :
    (map.mapValues f).KeyedBy name := by
  intro entry member
  rw [toList_mapValues] at member
  obtain ⟨old, inside, rfl⟩ := List.mem_map.mp member
  rw [kept old.2 (mem_values.mpr ⟨old.1, inside⟩)]
  exact keyed old inside

/-- Values entered under their folded names, one after the other: no others are there. -/
theorem foldl_insert (items : List α) (keyed : map.KeyedBy name) :
    (items.foldl (fun map item => map.insert (fold (name item)) item) map).KeyedBy name ∧
      (items.foldl (fun map item => map.insert (fold (name item)) item) map).size ≤
        map.size + items.length ∧
      ∀ value ∈ (items.foldl (fun map item => map.insert (fold (name item)) item) map).values,
        value ∈ map.values ∨ value ∈ items := by
  induction items generalizing map with
  | nil => exact ⟨keyed, Nat.le_refl _, fun value member => Or.inl member⟩
  | cons item items ih =>
    obtain ⟨kept, few, origin⟩ := ih (keyed.insert item)
    have one := size_insert_le map (fold (name item)) item
    refine ⟨kept, ?_, fun value member => ?_⟩
    · simp only [List.length_cons, List.foldl_cons] at few ⊢
      omega
    · rcases origin value member with old | new
      · rcases mem_values_insert old with rfl | old
        · exact Or.inr List.mem_cons_self
        · exact Or.inl old
      · exact Or.inr (List.mem_cons_of_mem _ new)

end KeyedBy
end OrderedMap

/-- A list of values comes with the types that require one of its shape, and no list
with any other. -/
def ValueList.Fits (type : ValueType) : Option ValueList → Prop
  | some (.flags _) => type = .flags
  | some (.choices _) => type = .choices
  | none => type.hasList = false

structure KeyValue.WellFormed (keyValue : KeyValue) : Prop where
  fits : ValueList.Fits keyValue.type keyValue.values
  powers : ∀ entry ∈ keyValue.flags, entry.bit.power ≤ 127

theorem ValueType.hasList_cases (type : ValueType) :
    type = .flags ∨ type = .choices ∨ type.hasList = false := by
  cases type <;> simp [ValueType.hasList]

namespace KeyValue.WellFormed

variable {keyValue : KeyValue}

theorem values_of_flags (wellFormed : keyValue.WellFormed) (type : keyValue.type = .flags) :
    keyValue.values = some (.flags keyValue.flags) := by
  have fits := wellFormed.fits
  rw [KeyValue.flags]
  cases values : keyValue.values with
  | none => simp [values, ValueList.Fits, type, ValueType.hasList] at fits
  | some list =>
    cases list with
    | flags entries => rfl
    | choices entries => simp [values, ValueList.Fits, type] at fits

theorem values_of_choices (wellFormed : keyValue.WellFormed) (type : keyValue.type = .choices) :
    keyValue.values = some (.choices keyValue.choices) := by
  have fits := wellFormed.fits
  rw [KeyValue.choices]
  cases values : keyValue.values with
  | none => simp [values, ValueList.Fits, type, ValueType.hasList] at fits
  | some list =>
    cases list with
    | flags entries => simp [values, ValueList.Fits, type] at fits
    | choices entries => rfl

theorem values_of_plain (wellFormed : keyValue.WellFormed)
    (plain : keyValue.type.hasList = false) : keyValue.values = none := by
  have fits := wellFormed.fits
  cases values : keyValue.values with
  | none => rfl
  | some list =>
    cases list with
    | flags entries => simp_all [ValueList.Fits, ValueType.hasList]
    | choices entries => simp_all [ValueList.Fits, ValueType.hasList]

end KeyValue.WellFormed

namespace EntityClass

/-- The names that wait to be linked, in order. -/
def names (entity : EntityClass) : List String :=
  entity.bases.filterMap fun base =>
    match base with
    | .named name => some name
    | .linked _ => none

variable {entity : EntityClass}

theorem mem_names {name : String} : name ∈ entity.names ↔ .named name ∈ entity.bases := by
  rw [names, List.mem_filterMap]
  constructor
  · rintro ⟨base, inside, same⟩
    cases base with
    | named other =>
      cases same
      exact inside
    | linked id => cases same
  · intro inside
    exact ⟨_, inside, rfl⟩

theorem mem_links {id : ClassId} : id ∈ entity.links ↔ .linked id ∈ entity.bases := by
  rw [links, List.mem_filterMap]
  constructor
  · rintro ⟨base, inside, same⟩
    cases base with
    | named other => cases same
    | linked other =>
      cases same
      exact inside
  · intro inside
    exact ⟨_, inside, rfl⟩

theorem bases_eq_of_unlinked (unlinked : entity.links = []) :
    entity.bases = entity.names.map Base.named := by
  have named : ∀ base ∈ entity.bases, ∃ name, base = .named name := by
    intro base inside
    cases base with
    | named name => exact ⟨name, rfl⟩
    | linked id => exact absurd (mem_links.mpr inside) (by simp [unlinked])
  rw [names]
  generalize entity.bases = bases at named
  induction bases with
  | nil => rfl
  | cons base bases ih =>
    obtain ⟨name, rfl⟩ := named base List.mem_cons_self
    have rest := ih fun other inside => named other (List.mem_cons_of_mem _ inside)
    simp only [List.filterMap_cons, List.map_cons]
    rw [← rest]

theorem bases_eq_of_linked (entity : EntityClass)
    (linked : ∀ base ∈ entity.bases, ∃ id, base = .linked id) :
    entity.bases = entity.links.map Base.linked := by
  rw [links]
  generalize entity.bases = bases at linked
  induction bases with
  | nil => rfl
  | cons base bases ih =>
    obtain ⟨id, rfl⟩ := linked base List.mem_cons_self
    have rest := ih fun other inside => linked other (List.mem_cons_of_mem _ inside)
    simp only [List.filterMap_cons, List.map_cons]
    rw [← rest]

/-- Members are stored under their folded names, and value lists fit. -/
structure WellKept (entity : EntityClass) : Prop where
  keyValues : entity.keyValues.KeyedBy KeyValue.name
  inputs : entity.inputs.KeyedBy Signal.name
  outputs : entity.outputs.KeyedBy Signal.name
  lists : ∀ keyValue ∈ entity.keyValues.values, keyValue.WellFormed

end EntityClass
end EntitySchema
