import EntitySchema.MergedView
import EntitySchema.Proofs.Inheritance.Lineage

/-! Merged views as rows of entries of which the first of each key counts. Looking up a
name, listing the entries, counting them and asking whether there are any are different
walks through the same row, and they agree. -/
namespace EntitySchema

namespace MergedView

variable {α : Type} {front back entries : List (String × α)} {entry : String × α} {key : String}

/-- The entries that are the first ones of their keys. -/
def firsts : List (String × α) → List (String × α)
  | [] => []
  | entry :: rest => entry :: (firsts rest).filter fun other => other.1 ≠ entry.1

theorem mem_of_mem_firsts (member : entry ∈ firsts entries) : entry ∈ entries := by
  induction entries with
  | nil => exact member
  | cons first rest ih =>
    rcases List.mem_cons.mp member with rfl | later
    · exact List.mem_cons_self
    · exact List.mem_cons_of_mem _ (ih (List.mem_filter.mp later).1)

theorem keys_firsts (entries : List (String × α)) :
    key ∈ (firsts entries).map Prod.fst ↔ key ∈ entries.map Prod.fst := by
  induction entries with
  | nil => rfl
  | cons first rest ih =>
    simp only [List.mem_map, firsts, List.mem_cons, List.mem_filter] at ih ⊢
    by_cases same : key = first.1
    · grind
    · grind

theorem nodup_firsts (entries : List (String × α)) : ((firsts entries).map Prod.fst).Nodup := by
  induction entries with
  | nil => exact List.nodup_nil
  | cons first rest ih =>
    rw [firsts, List.map_cons, List.nodup_cons]
    refine ⟨fun again => ?_, ih.sublist (List.filter_sublist.map _)⟩
    obtain ⟨other, member, same⟩ := List.mem_map.mp again
    exact (of_decide_eq_true (List.mem_filter.mp member).2) same

theorem firsts_append (front back : List (String × α)) : firsts (front ++ back) =
    firsts front ++ (firsts back).filter fun entry => entry.1 ∉ front.map Prod.fst := by
  induction front with
  | nil => simp [firsts]
  | cons first front ih =>
    have both : ∀ entry ∈ firsts back,
        (decide (entry.1 ≠ first.1) && decide (entry.1 ∉ front.map Prod.fst)) =
          decide (entry.1 ∉ (first :: front).map Prod.fst) := by
      intro entry _
      rw [← Bool.decide_and, decide_eq_decide, List.map_cons, List.mem_cons, not_or]
    rw [List.cons_append, firsts, ih, firsts, List.filter_append, List.filter_filter,
      List.filter_congr both, List.cons_append]

/-- Entries of distinct keys are all the first ones. -/
theorem firsts_of_nodup (distinct : (entries.map Prod.fst).Nodup) : firsts entries = entries := by
  induction entries with
  | nil => rfl
  | cons first rest ih =>
    rw [List.map_cons, List.nodup_cons] at distinct
    rw [firsts, ih distinct.2, List.filter_eq_self.mpr]
    intro other member
    have fresh : other.1 ≠ first.1 := fun same => distinct.1 (same ▸ List.mem_map_of_mem member)
    exact decide_eq_true fresh

theorem firsts_firsts_append (front back : List (String × α)) :
    firsts (firsts front ++ back) = firsts (front ++ back) := by
  simp only [firsts_append, firsts_of_nodup (nodup_firsts front), keys_firsts]

theorem firsts_append_firsts_append (front back rest : List (String × α)) :
    firsts (front ++ (firsts back ++ rest)) = firsts (front ++ (back ++ rest)) := by
  rw [firsts_append, firsts_firsts_append, ← firsts_append]

/-- Entries whose keys have all been before do not count. -/
theorem firsts_append_of_subset (old : ∀ entry ∈ back, entry.1 ∈ front.map Prod.fst) :
    firsts (front ++ back) = firsts front := by
  have none : (firsts back).filter (fun entry => entry.1 ∉ front.map Prod.fst) = [] := by
    rw [List.filter_eq_nil_iff]
    intro entry member
    simpa using old entry (mem_of_mem_firsts member)
  rw [firsts_append, none, List.append_nil]

theorem firsts_append_append_of_subset {rest : List (String × α)}
    (old : ∀ entry ∈ back, entry.1 ∈ front.map Prod.fst) :
    firsts (front ++ (back ++ rest)) = firsts (front ++ rest) := by
  rw [← List.append_assoc, ← firsts_firsts_append, firsts_append_of_subset old,
    firsts_firsts_append]

theorem lookup_filter_ne {other : String} (different : key ≠ other) :
    (entries.filter fun entry => entry.1 ≠ other).lookup key = entries.lookup key := by
  induction entries with
  | nil => rfl
  | cons first rest ih =>
    rw [List.lookup_cons, List.filter_cons]
    by_cases same : key = first.1
    · rw [← same, if_pos (decide_eq_true different), List.lookup_cons, ← same, beq_self_eq_true]
    · rw [beq_false_of_ne same, ← ih]
      split
      · rw [List.lookup_cons, beq_false_of_ne same]
      · rfl

theorem lookup_firsts (key : String) (entries : List (String × α)) :
    (firsts entries).lookup key = entries.lookup key := by
  induction entries with
  | nil => rfl
  | cons first rest ih =>
    rw [firsts, List.lookup_cons, List.lookup_cons]
    split
    · rfl
    · rename_i different
      rw [lookup_filter_ne (ne_of_beq_false different), ih]

/-- Collecting entries with a set of the keys that have been met. -/
theorem firstsFrom_eq (seen : Std.HashSet String) (kept entries : List (String × α)) :
    firstsFrom seen kept entries =
      kept.reverse ++ (firsts entries).filter fun entry => !seen.contains entry.1 := by
  induction entries generalizing seen kept with
  | nil => simp [firstsFrom, firsts]
  | cons first rest ih =>
    rw [firstsFrom, firsts]
    split
    · rename_i old
      rw [ih, List.filter_cons, if_neg (by simp [old]), List.filter_filter]
      congr 1
      apply List.filter_congr
      intro other _
      by_cases same : other.1 = first.1 <;> simp [same, old]
    · rename_i fresh
      rw [ih, List.filter_cons, if_pos (by simp [fresh]), List.filter_filter,
        List.reverse_cons, List.append_assoc, List.singleton_append]
      congr 2
      apply List.filter_congr
      intro other _
      by_cases same : other.1 = first.1 <;> simp [same, Ne.symm]

variable {view : MergedView α} {name : String} {member : α}

theorem entries_eq (view : MergedView α) :
    view.entries = firsts (view.layers.flatMap OrderedMap.toList) := by
  simp [entries, firstsFrom_eq]

theorem get?_eq_lookup (view : MergedView α) (name : String) :
    view.get? name = view.entries.lookup (fold name) := by
  rw [entries_eq, lookup_firsts, get?]
  induction view.layers with
  | nil => rfl
  | cons layer layers ih =>
    rw [List.findSome?_cons, List.flatMap_cons, List.lookup_append, ih, OrderedMap.get?_eq_lookup]
    cases layer.toList.lookup (fold name) <;> rfl

theorem nodup_keys (view : MergedView α) : view.keys.Nodup := by
  rw [keys, entries_eq]
  exact nodup_firsts _

theorem get?_eq_some_iff {view : MergedView α} {name : String} {member : α} :
    view.get? name = some member ↔ (fold name, member) ∈ view.entries := by
  rw [get?_eq_lookup]
  exact OrderedMap.lookup_eq_some_iff_mem view.nodup_keys

theorem contains_iff {view : MergedView α} {name : String} :
    view.contains name = true ↔ ∃ member, (fold name, member) ∈ view.entries := by
  simp only [contains, Option.isSome_iff_exists, get?_eq_some_iff]

/-- Nothing is hidden where nothing is defined. -/
theorem isEmpty_iff {view : MergedView α} : view.isEmpty = true ↔ view.length = 0 := by
  have none : view.entries = [] ↔ view.layers.flatMap OrderedMap.toList = [] := by
    rw [entries_eq]
    cases view.layers.flatMap OrderedMap.toList <;> simp [firsts]
  rw [length, List.length_eq_zero_iff, none, List.flatMap_eq_nil_iff, isEmpty, List.all_eq_true]
  simp only [OrderedMap.isEmpty, OrderedMap.toList, Array.isEmpty_iff, Array.toList_eq_nil_iff]

/-- The entry is that of the first layer that has its key. -/
theorem get?_eq_some_iff_nearest {members : EntityClass → OrderedMap α}
    {ancestry : List EntityClass} {name : String} {member : α} :
    get? ⟨ancestry.map members⟩ name = some member ↔
      ∃ nearer entity farther, ancestry = nearer ++ entity :: farther ∧
        (∀ other ∈ nearer, fold name ∉ (members other).keys) ∧
        (fold name, member) ∈ (members entity).toList := by
  rw [get?, List.findSome?_map, List.findSome?_eq_some_iff]
  simp only [Function.comp_apply, OrderedMap.get?_eq_some_iff, OrderedMap.get?_eq_none_iff]
  constructor
  · rintro ⟨nearer, entity, farther, same, here, absent⟩
    exact ⟨nearer, entity, farther, same, absent, here⟩
  · rintro ⟨nearer, entity, farther, same, absent, here⟩
    exact ⟨nearer, entity, farther, same, here, absent⟩

/-- The entries of a row of layers: all those of the first layer, and behind them those of
each further layer whose keys are not there yet. -/
def layered (layers : List (OrderedMap α)) : List (String × α) :=
  layers.foldl (fun yielded layer =>
    yielded ++ layer.toList.filter fun entry => entry.1 ∉ yielded.map Prod.fst) []

theorem layered_eq (layers : List (OrderedMap α)) :
    layered layers = firsts (layers.flatMap OrderedMap.toList) := by
  suffices behind : ∀ entries : List (String × α), layers.foldl (fun yielded layer =>
      yielded ++ layer.toList.filter fun entry => entry.1 ∉ yielded.map Prod.fst)
        (firsts entries) = firsts (entries ++ layers.flatMap OrderedMap.toList) from behind []
  induction layers with
  | nil => simp
  | cons layer layers ih =>
    intro entries
    have added : firsts entries ++
        layer.toList.filter (fun entry => entry.1 ∉ (firsts entries).map Prod.fst) =
          firsts (entries ++ layer.toList) := by
      simp only [firsts_append, firsts_of_nodup layer.keys_nodup, keys_firsts]
    rw [List.foldl_cons, added, ih, List.flatMap_cons, List.append_assoc]

theorem entries_eq_layered (view : MergedView α) : view.entries = layered view.layers := by
  rw [entries_eq, layered_eq]

/-- What a view shows of the members that the classes of a lineage have, the nearest class
first. -/
structure Coherent (view : MergedView α) (members : EntityClass → OrderedMap α)
    (ancestry : List EntityClass) : Prop where
  distinct : view.keys.Nodup
  found : ∀ name member, view.get? name = some member ↔ (fold name, member) ∈ view.entries
  contained : ∀ name, view.contains name = true ↔ ∃ member, (fold name, member) ∈ view.entries
  nearest : ∀ name member, view.get? name = some member ↔
    ∃ nearer entity farther, ancestry = nearer ++ entity :: farther ∧
      (∀ other ∈ nearer, fold name ∉ (members other).keys) ∧
      (fold name, member) ∈ (members entity).toList
  counted : view.length = view.entries.length
  empty : view.isEmpty = true ↔ view.length = 0
  own : ∀ entity ∈ ancestry.head?, (members entity).toList <+: view.entries
  ordered : view.entries = layered (ancestry.map members)

theorem coherent (members : EntityClass → OrderedMap α) (ancestry : List EntityClass) :
    Coherent ⟨ancestry.map members⟩ members ancestry where
  distinct := nodup_keys _
  found _ _ := get?_eq_some_iff
  contained _ := contains_iff
  nearest _ _ := get?_eq_some_iff_nearest
  counted := rfl
  empty := isEmpty_iff
  own entity first := by
    obtain ⟨farther, rfl⟩ := List.head?_eq_some_iff.mp first
    rw [entries_eq, List.map_cons, List.flatMap_cons, firsts_append,
      firsts_of_nodup (members entity).keys_nodup]
    exact List.prefix_append _ _
  ordered := entries_eq_layered _

end MergedView

namespace Database

variable {db : Database} {id : ClassId} {entity : EntityClass}

theorem ancestry_cons (known : db.classAt? id = some entity) :
    ∃ inherited, db.ancestry id = entity :: inherited := by
  obtain ⟨inherited, same⟩ := lineage_cons known
  rw [ancestry, same, List.filterMap_cons, known]
  exact ⟨_, rfl⟩

/-- The views of a class on the keyvalues, inputs and outputs of itself and all it inherits
from are coherent, whatever the database looks like. -/
theorem coherent_views (known : db.classAt? id = some entity) :
    ∃ inherited, db.ancestry id = entity :: inherited ∧
      (db.keyValuesOf id).Coherent EntityClass.keyValues (entity :: inherited) ∧
      (db.inputsOf id).Coherent EntityClass.inputs (entity :: inherited) ∧
      (db.outputsOf id).Coherent EntityClass.outputs (entity :: inherited) := by
  obtain ⟨inherited, same⟩ := ancestry_cons known
  refine ⟨inherited, same, ?_, ?_, ?_⟩
  · rw [keyValuesOf, same]
    exact MergedView.coherent _ _
  · rw [inputsOf, same]
    exact MergedView.coherent _ _
  · rw [outputsOf, same]
    exact MergedView.coherent _ _

/-- Of two classes that inherit from each other, the nearer one has its say. -/
theorem coherent_views_mutual :
    Mutual.database.classAt? 0 = some Mutual.a ∧ (Mutual.database.keyValuesOf 0).keys.Nodup ∧
      (Mutual.database.keyValuesOf 0).get? "HEALTH" = some (Mutual.health "100") := by
  have known : Mutual.database.classAt? 0 = some Mutual.a := rfl
  obtain ⟨inherited, -, keyValues, -, -⟩ := coherent_views known
  have folded : fold "HEALTH" = "health" := by decide
  refine ⟨known, keyValues.distinct, (keyValues.nearest _ _).mpr ?_⟩
  refine ⟨[], Mutual.a, inherited, rfl, nofun, ?_⟩
  rw [folded]
  exact List.mem_singleton_self _

end Database
end EntitySchema
