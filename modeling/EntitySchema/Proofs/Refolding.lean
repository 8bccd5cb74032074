import EntitySchema.Proofs.Compact.Relinking
import EntitySchema.Proofs.Editing
import EntitySchema.Proofs.Inheritance.Merging
import EntitySchema.Proofs.Snapshot.Checking

/-! Names are folded where they are stored, and once more where they are looked up. Folding keeps
what has been folded and heeds no blanks around a name, so what is stored under folded names is
found again; what a snapshot has stored under other names is not. -/
namespace EntitySchema

theorem OrderedMap.KeyedBy.fold_key {α : Type} {name : α → String} {map : OrderedMap α}
    (keyed : map.KeyedBy name) {key : String} (listed : key ∈ map.keys) : fold key = key := by
  obtain ⟨entry, inside, rfl⟩ := List.mem_map.mp listed
  rw [keyed entry inside, fold_fold]

namespace MergedView

variable {α : Type} {members : EntityClass → OrderedMap α} {classes : List EntityClass}
  {key : String} {member : α}

/-- What a view lists comes from one of the classes. -/
theorem exists_of_mem_entries (listed : (key, member) ∈ entries ⟨classes.map members⟩) :
    ∃ entity ∈ classes, (key, member) ∈ (members entity).toList := by
  rw [entries_eq] at listed
  obtain ⟨layer, inside, entry⟩ := List.mem_flatMap.mp (mem_of_mem_firsts listed)
  obtain ⟨entity, among, rfl⟩ := List.mem_map.mp inside
  exact ⟨entity, among, entry⟩

theorem get?_of_mem_entries
    (folded : ∀ entity ∈ classes, ∀ key ∈ (members entity).keys, fold key = key)
    (listed : (key, member) ∈ entries ⟨classes.map members⟩) :
    get? ⟨classes.map members⟩ key = some member := by
  obtain ⟨entity, inside, entry⟩ := exists_of_mem_entries listed
  rw [get?_eq_some_iff, folded entity inside key (List.mem_map_of_mem entry)]
  exact listed

end MergedView

namespace Database

variable {db : Database} {id : ClassId} {entity : EntityClass}

theorem mem_values_of_classAt? (known : db.classAt? id = some entity) :
    entity ∈ db.classes.values := by
  obtain ⟨⟨key, _⟩, entry, rfl⟩ := Option.map_eq_some_iff.mp known
  exact OrderedMap.mem_values.mpr ⟨key, OrderedMap.mem_toList_of_entryAt? entry⟩

theorem mem_values_of_mem_ancestry (inherits : entity ∈ db.ancestry id) :
    entity ∈ db.classes.values := by
  obtain ⟨other, -, known⟩ := List.mem_filterMap.mp inherits
  exact mem_values_of_classAt? known

/-- Classes are stored under their folded names, and members under keys that folding keeps. -/
structure FoldedKeys (db : Database) : Prop where
  classes : db.classes.KeyedBy EntityClass.name
  keyValues : ∀ entity ∈ db.classes.values, ∀ key ∈ entity.keyValues.keys, fold key = key
  inputs : ∀ entity ∈ db.classes.values, ∀ key ∈ entity.inputs.keys, fold key = key
  outputs : ∀ entity ∈ db.classes.values, ∀ key ∈ entity.outputs.keys, fold key = key

theorem Orderly.foldedKeys (orderly : db.Orderly) : db.FoldedKeys where
  classes := orderly.keyed
  keyValues entity stored _ := (orderly.wellKept entity stored).keyValues.fold_key
  inputs entity stored _ := (orderly.wellKept entity stored).inputs.fold_key
  outputs entity stored _ := (orderly.wellKept entity stored).outputs.fold_key

/-- Unless a problem keeps its class as it is, a name that waits is linked to the class that is
stored under its folded form. -/
theorem exists_link {name key : String} {i j : Nat} (few : db.size ≤ UInt32.size)
    (stored : db.classes.entryAt? i = some (key, entity))
    (waits : entity.bases[j]? = some (.named name)) :
    ∃ after, db.linkBases.1.classes.entryAt? i = some (key, after) ∧
      (after = entity ∧ db.linkBases.2 ≠ none ∨ ∃ id, after.bases[j]? = some (.linked id) ∧
        db.linkBases.1.classes.keys[id.toNat]? = some (fold name)) := by
  obtain ⟨after, placed, ⟨impossible, -⟩ | ⟨-, linked | kept⟩⟩ := linkFrom_entryAt? (i := 0) stored
  · exact absurd impossible (Nat.not_lt_zero i)
  · refine ⟨after, placed, Or.inr ?_⟩
    obtain ⟨bases, links, rfl⟩ := EntityClass.linkBases_eq_ok_iff.mp linked
    obtain ⟨base, slot, link⟩ := exists_getElem?_of_forall₂ links.flip waits
    obtain ⟨id, known, rfl⟩ := Base.links_named_iff.mp link
    refine ⟨id, slot, ?_⟩
    rw [linkBases, linkFrom_keys]
    exact keys_of_idOf? few known
  · exact ⟨after, placed, Or.inl kept⟩

/-- What the view of a class lists is found under its key, if folding keeps all keys. -/
theorem get?_of_listed {α : Type} {members : EntityClass → OrderedMap α}
    (folded : ∀ entity ∈ db.classes.values, ∀ key ∈ (members entity).keys, fold key = key)
    (id : ClassId) (key : String) (member : α)
    (listed : (key, member) ∈ MergedView.entries ⟨(db.ancestry id).map members⟩) :
    MergedView.get? ⟨(db.ancestry id).map members⟩ key = some member :=
  MergedView.get?_of_mem_entries
    (fun entity inherits => folded entity (mem_values_of_mem_ancestry inherits)) listed

/-- Names meet, whether they have been folded once or twice. A base that was added leads to the
class of that name as soon as it is linked, unless a problem keeps its class as it is, and what a
view lists is found under its key. -/
structure NamesMeet (db : Database) : Prop where
  linked : ∀ (name : String) (entity : EntityClass) (key : String) (i j : Nat),
    db.classes.entryAt? i = some (key, entity.addBase name) →
    (entity.addBase name).bases[j]? = some (.named (fold (trimmed name))) →
    ∃ after, db.linkBases.1.classes.entryAt? i = some (key, after) ∧
      (after = entity.addBase name ∧ db.linkBases.2 ≠ none ∨
        ∃ id, after.bases[j]? = some (.linked id) ∧ (db.linkBases.1.classAt? id).isSome ∧
          ∀ other target, db.linkBases.1.classAt? other = some target →
            (id = other ↔ fold (trimmed name) = fold target.name))
  keyValues : ∀ (id : ClassId) (key : String) (member : KeyValue),
    (key, member) ∈ (db.keyValuesOf id).entries → (db.keyValuesOf id).get? key = some member
  inputs : ∀ (id : ClassId) (key : String) (member : Signal),
    (key, member) ∈ (db.inputsOf id).entries → (db.inputsOf id).get? key = some member
  outputs : ∀ (id : ClassId) (key : String) (member : Signal),
    (key, member) ∈ (db.outputsOf id).entries → (db.outputsOf id).get? key = some member

/-- Folding is idempotent and can be done before or after a name is trimmed, so names meet in
every database whose keys are folded. -/
theorem names_meet (few : db.size ≤ UInt32.size) (folded : db.FoldedKeys) :
    (∀ text, fold (fold text) = fold text ∧ trimmed (fold text) = fold (trimmed text)) ∧
      db.NamesMeet := by
  refine ⟨fun text => ⟨fold_fold text, trimmed_fold text⟩, ?_, get?_of_listed folded.keyValues,
    get?_of_listed folded.inputs, get?_of_listed folded.outputs⟩
  intro name entity key i j stored waits
  obtain ⟨after, placed, kept | ⟨id, slot, known⟩⟩ := exists_link few stored waits
  · exact ⟨after, placed, Or.inl kept⟩
  -- the name has been folded when it was added, and is folded again to be looked up
  rw [fold_fold] at known
  obtain ⟨target, found⟩ := OrderedMap.exists_entryAt?_of_keys known
  have leads : db.linkBases.1.classAt? id = some target := congrArg (Option.map Prod.snd) found
  refine ⟨after, placed, Or.inr ⟨id, slot, Option.isSome_of_eq_some leads, ?_⟩⟩
  intro other definition stands
  have there := idOf?_of_classAt? (keyed_linkBases folded.classes) stands
  constructor
  · rintro rfl
    have again := keys_of_idOf? (by rwa [linkBases_size]) there
    exact Option.some.inj (known.symm.trans again)
  · intro same
    rw [same] at known
    exact Option.some.inj ((idOf?_of_keys known).symm.trans there)

namespace Lit

def style : KeyValue := ⟨"Style", .string, "Style", "", "", false, none⟩

def lamp (key : String) : EntityClass :=
  { EntityClass.plain .base "Lamp" with keyValues := .ofDistinct [(key, style)] (by simp) }

def post : EntityClass := { EntityClass.plain .point "Post" with bases := [.named "lamp"] }

/-- A lamp whose style is stored under some key, and a post that is to become a lamp. -/
def database (key : String) : Database :=
  ⟨.ofDistinct [("lamp", lamp key), ("post", post)] (by simp), 0, 0, []⟩

theorem folded_lamp : fold (trimmed " LAMP ") = "lamp" := by decide

theorem addBase_lamp : (EntityClass.plain .point "Post").addBase " LAMP " = post := by
  simp [EntityClass.addBase, EntityClass.plain, post, folded_lamp]

theorem listed (key : String) : (key, style) ∈ ((database key).keyValuesOf 0).entries := by
  have known : (database key).classAt? 0 = some (lamp key) := rfl
  obtain ⟨inherited, ancestry⟩ := ancestry_cons known
  have own := (MergedView.coherent EntityClass.keyValues (lamp key :: inherited)).own (lamp key) rfl
  rw [keyValuesOf, ancestry]
  exact own.subset List.mem_cons_self

theorem foldedKeys : (database "style").FoldedKeys where
  classes := by unfold OrderedMap.KeyedBy; decide
  keyValues := by decide
  inputs := by decide
  outputs := by decide

end Lit

theorem names_meet_lit :
    (Lit.database "style").size ≤ UInt32.size ∧ (Lit.database "style").FoldedKeys ∧
      (Lit.database "style").linkBases.2 = none ∧
      (∃ after, (Lit.database "style").linkBases.1.classes.entryAt? 1 = some ("post", after) ∧
        after.bases[0]? = some (.linked 0)) ∧
      ((Lit.database "style").keyValuesOf 0).get? "style" = some Lit.style := by
  have few : (Lit.database "style").size ≤ UInt32.size := by decide
  have clear : (Lit.database "style").linkBases.2 = none := by
    rw [linkBases_clear_iff]
    decide
  obtain ⟨-, meet⟩ := names_meet few Lit.foldedKeys
  have linked := meet.linked " LAMP " (EntityClass.plain .point "Post") "post" 1 0
  rw [Lit.addBase_lamp, Lit.folded_lamp] at linked
  obtain ⟨after, placed, ⟨-, problem⟩ | ⟨id, slot, -, leads⟩⟩ := linked rfl rfl
  · exact absurd clear problem
  obtain ⟨bases, -, there⟩ := entryAt?_linkBases (i := 0) clear rfl
  have folded : "lamp" = fold "Lamp" := by decide
  have same : id = 0 := (leads 0 _ (congrArg (Option.map Prod.snd) there)).mpr folded
  exact ⟨few, Lit.foldedKeys, clear, ⟨after, placed, same ▸ slot⟩,
    meet.keyValues 0 "style" Lit.style (Lit.listed "style")⟩

end Database

namespace Snapshot

open MessagePack Database

theorem Lit.counted : (databaseValue (Lit.database "Style")).Counted := by
  have bound (n : Int) : (Value.signed n).Counted := .signed n
  have mark (flag : Bool) : (Value.bool flag).Counted := .bool flag
  have absent : Value.nil.Counted := .nil
  simp +decide only [databaseValue, databaseFields, Lit.database, classValue, classFields, Lit.lamp,
    Lit.post, EntityClass.plain, baseValue, taggedValue_eq, keyValueValue,
    keyValueFields, Lit.style, valuesValue, counted_recordValue, counted_mapValue,
    counted_listValue, counted_textValue, OrderedMap.toList_ofDistinct, OrderedMap.toList_empty,
    List.zip_cons_cons, List.zip_nil_right, List.forall_mem_cons, List.not_mem_nil,
    List.length_cons, List.length_nil, false_imp_iff, implies_true, bound, mark, absent, and_true]

/-- A key that has not been folded is restored like any other, and listed but not found. -/
theorem restores_unfolded :
    read (write (Lit.database "Style") ++ []) = .ok (Lit.database "Style") ∧
      ("Style", Lit.style) ∈ ((Lit.database "Style").keyValuesOf 0).entries ∧
      ((Lit.database "Style").keyValuesOf 0).get? "Style" = none ∧
      ¬(Lit.database "Style").NamesMeet := by
  have listed := Lit.listed "Style"
  have missed : ((Lit.database "Style").keyValuesOf 0).get? "Style" = none := by
    rw [Option.eq_none_iff_forall_ne_some]
    intro member found
    obtain ⟨entity, inherits, entry⟩ :=
      MergedView.exists_of_mem_entries (MergedView.get?_eq_some_iff.mp found)
    have apart : ∀ entity ∈ (Lit.database "Style").classes.values,
        fold "Style" ∉ entity.keyValues.keys := by
      decide
    exact apart entity (mem_values_of_mem_ancestry inherits) (List.mem_map_of_mem entry)
  refine ⟨read_write Lit.counted (by decide) [], listed, missed, fun meet => ?_⟩
  rw [meet.keyValues 0 "Style" Lit.style listed] at missed
  cases missed

end Snapshot
end EntitySchema
