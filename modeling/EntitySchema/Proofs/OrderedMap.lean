import EntitySchema.OrderedMap
import Mathlib.Data.List.Nodup
import Mathlib.Data.List.Pairwise

/-! Ordered maps as their lists of entries: what positions, insertions and rows of
insertions do to them, and maps over the values. -/
namespace EntitySchema.OrderedMap

variable {α β : Type} {map : OrderedMap α} {key : String} {value : α}

/-- The map that lists the given entries. -/
def ofDistinct (entries : List (String × α)) (distinct : (entries.map Prod.fst).Nodup) :
    OrderedMap α :=
  ⟨entries.toArray, positionsOf (entries.map Prod.fst), rfl, distinct⟩

@[simp] theorem toList_ofDistinct (entries : List (String × α))
    (distinct : (entries.map Prod.fst).Nodup) : (ofDistinct entries distinct).toList = entries :=
  rfl

theorem keys_nodup (map : OrderedMap α) : map.keys.Nodup := map.distinct

theorem length_toList (map : OrderedMap α) : map.toList.length = map.size := rfl

theorem length_keys (map : OrderedMap α) : map.keys.length = map.size := by
  rw [keys, List.length_map, length_toList]

theorem length_values (map : OrderedMap α) : map.values.length = map.size := by
  rw [values, List.length_map, length_toList]

theorem entryAt?_eq (map : OrderedMap α) (i : Nat) : map.entryAt? i = map.toList[i]? := by
  simp [entryAt?, toList]

theorem mem_values : value ∈ map.values ↔ ∃ key, (key, value) ∈ map.toList := by
  simp [values]

theorem mem_toList_of_entryAt? {i : Nat} {entry : String × α}
    (found : map.entryAt? i = some entry) : entry ∈ map.toList := by
  rw [entryAt?_eq] at found
  exact List.mem_of_getElem? found

theorem position?_eq_some_iff {i : Nat} :
    map.position? key = some i ↔ map.keys[i]? = some key := by
  constructor
  · intro found
    obtain ⟨inside, same⟩ := position?_eq_some found
    simp [keys, toList, inside, same]
  · intro found
    obtain ⟨inside, same⟩ := List.getElem?_eq_some_iff.mp found
    rw [position?_eq, ← same]
    exact List.idxOf?_eq_some_iff.mpr ⟨inside, rfl, fun j before equal =>
      Nat.ne_of_lt before ((List.Nodup.getElem_inj_iff map.keys_nodup).mp equal)⟩

theorem position?_of_entryAt? {i : Nat} (found : map.entryAt? i = some (key, value)) :
    map.position? key = some i := by
  rw [entryAt?_eq] at found
  rw [position?_eq_some_iff, keys, List.getElem?_map, found]
  rfl

theorem get?_of_toList {i : Nat} (found : map.toList[i]? = some (key, value)) :
    map.get? key = some value := by
  rw [← entryAt?_eq] at found
  rw [get?, position?_of_entryAt? found, Option.bind_some, found]
  rfl

theorem get?_eq_some_iff : map.get? key = some value ↔ (key, value) ∈ map.toList := by
  constructor
  · intro found
    rw [get?, Option.bind_eq_some_iff] at found
    obtain ⟨i, position, found⟩ := found
    obtain ⟨⟨other, _⟩, placed, rfl⟩ := Option.map_eq_some_iff.mp found
    rw [position?_eq_some_iff] at position
    have known := position?_eq_some_iff.mp (position?_of_entryAt? placed)
    cases position.symm.trans known
    exact mem_toList_of_entryAt? placed
  · intro member
    obtain ⟨i, found⟩ := List.mem_iff_getElem?.mp member
    exact get?_of_toList found

/-- With distinct keys, what is found under a key is what is listed with it. -/
theorem lookup_eq_some_iff_mem {entries : List (String × α)}
    (distinct : (entries.map Prod.fst).Nodup) :
    entries.lookup key = some value ↔ (key, value) ∈ entries := by
  rw [List.lookup_eq_some_iff]
  constructor
  · rintro ⟨front, back, rfl, -⟩
    simp
  · intro member
    obtain ⟨front, back, rfl⟩ := List.append_of_mem member
    refine ⟨front, back, rfl, fun other before => ?_⟩
    rw [List.map_append, List.map_cons, List.nodup_append] at distinct
    have different := distinct.2.2 other.1 (List.mem_map_of_mem before) key List.mem_cons_self
    simpa using different.symm

theorem get?_eq_lookup (map : OrderedMap α) (key : String) :
    map.get? key = map.toList.lookup key := by
  apply Option.ext
  intro value
  rw [get?_eq_some_iff, lookup_eq_some_iff_mem map.keys_nodup]

theorem get?_eq_none_iff : map.get? key = none ↔ key ∉ map.keys := by
  rw [Option.eq_none_iff_forall_not_mem]
  simp [get?_eq_some_iff, keys]

/-- Maps of one size are equal if the entries of one are found in the other. -/
theorem ext_entryAt? {other : OrderedMap α} (same : map.size = other.size)
    (found : ∀ i entry, other.entryAt? i = some entry → map.entryAt? i = some entry) :
    map = other := by
  apply ext_toList
  apply List.ext_getElem?
  intro i
  rw [← entryAt?_eq, ← entryAt?_eq]
  cases entry : other.entryAt? i with
  | some value => exact found i value entry
  | none =>
    rw [entryAt?_eq, List.getElem?_eq_none_iff] at entry ⊢
    rw [length_toList] at entry ⊢
    omega

theorem exists_entryAt?_of_keys {i : Nat} (stored : map.keys[i]? = some key) :
    ∃ value, map.entryAt? i = some (key, value) := by
  rw [keys, List.getElem?_map, Option.map_eq_some_iff] at stored
  obtain ⟨⟨_, value⟩, found, rfl⟩ := stored
  exact ⟨value, (entryAt?_eq map i).trans found⟩

theorem lt_size_of_position? {i : Nat} (found : map.position? key = some i) : i < map.size :=
  (position?_eq_some found).1

/-- An insertion adds one entry to those there were, or puts it in the place of one. -/
theorem mem_toList_insert {entry : String × α}
    (member : entry ∈ (map.insert key value).toList) :
    entry = (key, value) ∨ entry ∈ map.toList := by
  cases found : map.position? key with
  | none =>
    rw [toList_insert_of_not_mem (position?_eq_none.mp found)] at member
    rcases List.mem_append.mp member with old | new
    · exact Or.inr old
    · exact Or.inl (List.mem_singleton.mp new)
  | some i =>
    rw [toList_insert_of_position? found] at member
    exact (List.mem_or_eq_of_mem_set member).symm

/-- What is put in is there, and what was there before under other keys. -/
theorem mem_toList_insert_iff {entry : String × α} :
    entry ∈ (map.insert key value).toList ↔
      entry = (key, value) ∨ entry.1 ≠ key ∧ entry ∈ map.toList := by
  have self : (key, value) ∈ (map.insert key value).toList := by
    cases found : map.position? key with
    | none => simp [toList_insert_of_not_mem (position?_eq_none.mp found)]
    | some i =>
      rw [toList_insert_of_position? found]
      exact List.mem_set (lt_size_of_position? found) _
  constructor
  · intro member
    by_cases same : entry.1 = key
    · subst same
      have found := get?_eq_some_iff.mpr member
      rw [get?_eq_some_iff.mpr self] at found
      exact Or.inl (Prod.ext rfl (Option.some.inj found).symm)
    · rcases mem_toList_insert member with rfl | old
      · exact absurd rfl same
      · exact Or.inr ⟨same, old⟩
  · rintro (rfl | ⟨other, old⟩)
    · exact self
    · cases found : map.position? key with
      | none => simp [toList_insert_of_not_mem (position?_eq_none.mp found), old]
      | some i =>
        obtain ⟨j, placed⟩ := List.mem_iff_getElem?.mp old
        have known := position?_of_entryAt? ((entryAt?_eq map j).trans placed)
        have elsewhere : i ≠ j := by
          rintro rfl
          rw [position?_eq_some_iff] at known found
          exact other (Option.some.inj (known.symm.trans found))
        rw [toList_insert_of_position? found]
        exact List.mem_of_getElem? ((List.getElem?_set_ne elsewhere).trans placed)

/-- The entry at a position after an insertion is the one put in, or was there before. -/
theorem entryAt?_insert {i : Nat} {entry : String × α}
    (found : (map.insert key value).entryAt? i = some entry) :
    entry = (key, value) ∨ map.entryAt? i = some entry := by
  rw [entryAt?_eq] at found ⊢
  cases position : map.position? key with
  | none =>
    rw [toList_insert_of_not_mem (position?_eq_none.mp position), List.getElem?_append] at found
    split at found
    · exact Or.inr found
    · exact Or.inl (List.mem_singleton.mp (List.mem_of_getElem? found))
  | some j =>
    rw [toList_insert_of_position? position, List.getElem?_set] at found
    split at found
    · split at found
      · exact Or.inl (Option.some.inj found).symm
      · cases found
    · exact Or.inr found

theorem mem_values_insert {other : α} (member : other ∈ (map.insert key value).values) :
    other = value ∨ other ∈ map.values := by
  obtain ⟨otherKey, entry⟩ := mem_values.mp member
  rcases mem_toList_insert entry with new | old
  · exact Or.inl (Prod.mk.inj new).2
  · exact Or.inr (mem_values.mpr ⟨otherKey, old⟩)

theorem keys_empty : (∅ : OrderedMap α).keys = [] := rfl

theorem keys_insert :
    (map.insert key value).keys = if key ∈ map.keys then map.keys else map.keys ++ [key] := by
  split
  · rename_i known
    exact keys_insert_of_mem known value
  · rename_i fresh
    rw [keys, toList_insert_of_not_mem fresh, List.map_append]
    rfl

theorem mem_keys_insert {other : String} :
    other ∈ (map.insert key value).keys ↔ other = key ∨ other ∈ map.keys := by
  rw [keys_insert]
  split
  · rename_i known
    constructor
    · exact Or.inr
    · rintro (rfl | old)
      · exact known
      · exact old
  · rw [List.mem_append, List.mem_singleton, or_comm]

theorem get?_insert (map : OrderedMap α) (key : String) (value : α) (other : String) :
    (map.insert key value).get? other = if other = key then some value else map.get? other := by
  apply Option.ext
  intro found
  rw [get?_eq_some_iff, mem_toList_insert_iff]
  split
  · rename_i same
    subst same
    simp [eq_comm]
  · rename_i apart
    simp [apart, get?_eq_some_iff]

theorem size_insert_le (map : OrderedMap α) (key : String) (value : α) :
    (map.insert key value).size ≤ map.size + 1 := by
  cases found : map.position? key with
  | none =>
    rw [← length_toList, toList_insert_of_not_mem (position?_eq_none.mp found)]
    simp [length_toList]
  | some i =>
    rw [← length_toList, toList_insert_of_position? found, List.length_set, length_toList]
    omega

theorem size_le_size_insert (map : OrderedMap α) (key : String) (value : α) :
    map.size ≤ (map.insert key value).size := by
  rw [← length_keys, ← length_keys, keys_insert]
  split
  · exact Nat.le_refl _
  · rw [List.length_append]
    exact Nat.le_add_right _ _

/-- Entries under new and distinct keys are added one behind the other. -/
theorem toList_foldl_insert {entries : List (String × α)}
    (distinct : (map.keys ++ entries.map Prod.fst).Nodup) :
    (entries.foldl (fun map entry => map.insert entry.1 entry.2) map).toList =
      map.toList ++ entries := by
  induction entries generalizing map with
  | nil => simp
  | cons entry entries ih =>
    have fresh : entry.1 ∉ map.keys := by
      rw [List.map_cons, List.nodup_append] at distinct
      intro known
      exact distinct.2.2 _ known _ List.mem_cons_self rfl
    have added := toList_insert_of_not_mem fresh entry.2
    rw [List.foldl_cons, ih, added, List.append_assoc, List.singleton_append]
    rw [keys, added]
    simpa [keys] using distinct

theorem toList_ofList {entries : List (String × α)} (distinct : (entries.map Prod.fst).Nodup) :
    (ofList entries).toList = entries :=
  toList_foldl_insert (by rwa [keys_empty, List.nil_append])

/-- Inserting the entries of a map into an empty one builds the map again. -/
theorem ofList_toList (map : OrderedMap α) : ofList map.toList = map :=
  ext_toList (toList_ofList map.keys_nodup)

/-- Of entries with the same key, the last one counts. -/
theorem toList_ofList_perm (entries : List (String × α)) :
    (ofList entries).toList.Perm (entries.pwFilter fun a b => a.1 ≠ b.1) := by
  have distinct : ∀ {rows : List (String × α)}, rows.Pairwise (fun a b => a.1 ≠ b.1) →
      rows.Nodup := fun apart => apart.imp fun other same => other (congrArg Prod.fst same)
  have stored : (ofList entries).toList.Nodup :=
    distinct (List.pairwise_map.mp (ofList entries).keys_nodup)
  rw [List.perm_ext_iff_of_nodup stored (distinct (List.pairwise_pwFilter entries))]
  suffices general : ∀ (map : OrderedMap α) (entry : String × α),
      entry ∈ (entries.foldl (fun map entry => map.insert entry.1 entry.2) map).toList ↔
        entry ∈ entries.pwFilter (fun a b => a.1 ≠ b.1) ∨
          entry ∈ map.toList ∧ ∀ later ∈ entries, later.1 ≠ entry.1 by
    simpa [ofList] using general ∅
  clear stored
  intro map entry
  induction entries generalizing map with
  | nil => simp
  | cons first entries ih =>
    have filtered : (∀ later ∈ entries.pwFilter (fun a b => a.1 ≠ b.1), first.1 ≠ later.1) ↔
        ∀ later ∈ entries, first.1 ≠ later.1 :=
      List.forall_mem_pwFilter (fun {x y z} different => by grind) first entries
    rw [List.foldl_cons, ih, mem_toList_insert_iff]
    by_cases last : ∀ later ∈ entries, first.1 ≠ later.1
    · rw [List.pwFilter_cons_of_pos (filtered.mpr last)]
      grind
    · rw [List.pwFilter_cons_of_neg (mt filtered.mp last)]
      grind

theorem toList_modify (map : OrderedMap α) (key : String) (change : α → α) :
    (map.modify key change).toList =
      map.toList.map fun entry => if entry.1 = key then (key, change entry.2) else entry := by
  rw [modify]
  cases found : map.get? key with
  | none =>
    have absent := get?_eq_none_iff.mp found
    refine ((List.map_congr_left fun entry member => ?_).trans (List.map_id _)).symm
    have other : entry.1 ≠ key := fun same => absent (same ▸ List.mem_map_of_mem member)
    rw [if_neg other]
    rfl
  | some value =>
    obtain ⟨i, placed⟩ := List.mem_iff_getElem?.mp (get?_eq_some_iff.mp found)
    have position := position?_of_entryAt? ((entryAt?_eq map i).trans placed)
    dsimp only
    rw [toList_insert_of_position? position]
    apply List.ext_getElem?
    intro j
    rw [List.getElem?_set, List.getElem?_map]
    split
    · rename_i same
      subst same
      rw [if_pos (List.getElem?_eq_some_iff.mp placed).1, placed, Option.map_some, if_pos rfl]
    · rename_i elsewhere
      cases entry : map.toList[j]? with
      | none => rfl
      | some other =>
        have different : other.1 ≠ key := by
          intro same
          have again := position?_of_entryAt? ((entryAt?_eq map j).trans entry)
          rw [same, position] at again
          exact elsewhere (Option.some.inj again)
        rw [Option.map_some, if_neg different]

theorem keys_modify (map : OrderedMap α) (key : String) (change : α → α) :
    (map.modify key change).keys = map.keys := by
  rw [keys, toList_modify, List.map_map]
  apply List.map_congr_left
  intro entry _
  by_cases same : entry.1 = key <;> simp [same]

theorem keys_setAt (map : OrderedMap α) (i : Nat) (value : α) :
    (map.setAt i value).keys = map.keys := by
  rw [setAt]
  split
  · rename_i inside
    simpa [keys, toList] using keys_set map.entries i inside value
  · rfl

theorem position?_setAt (map : OrderedMap α) (i : Nat) (value : α) (key : String) :
    (map.setAt i value).position? key = map.position? key := by
  rw [position?_eq, keys_setAt, position?_eq]

theorem toList_setAt {i : Nat} (found : map.toList[i]? = some (key, value)) (new : α) :
    (map.setAt i new).toList = map.toList.set i (key, new) := by
  obtain ⟨inside, same⟩ := List.getElem?_eq_some_iff.mp found
  have within : i < map.entries.size := inside
  have keyAt : map.entries[i].1 = key := congrArg Prod.fst same
  simp [setAt, within, keyAt, toList]

theorem entryAt?_setAt_self {i : Nat} (found : map.entryAt? i = some (key, value)) (new : α) :
    (map.setAt i new).entryAt? i = some (key, new) := by
  rw [entryAt?_eq] at found ⊢
  rw [toList_setAt found, List.getElem?_set_self (List.getElem?_eq_some_iff.mp found).1]

theorem setAt_self {i : Nat} (found : map.entryAt? i = some (key, value)) :
    map.setAt i value = map := by
  rw [entryAt?_eq] at found
  obtain ⟨inside, same⟩ := List.getElem?_eq_some_iff.mp found
  apply ext_toList
  rw [toList_setAt found, ← same, List.set_getElem_self]

theorem entryAt?_setAt_ne {i j : Nat} (other : i ≠ j) (new : α) :
    (map.setAt i new).entryAt? j = map.entryAt? j := by
  cases found : map.entryAt? i with
  | none =>
    have outside : ¬i < map.entries.size := by
      simpa [entryAt?] using found
    rw [setAt, dif_neg outside]
  | some entry =>
    rw [entryAt?_eq] at found
    rw [entryAt?_eq, toList_setAt found, List.getElem?_set_ne other, entryAt?_eq]

/-- The map with a function applied to every value. -/
def mapValues (f : α → β) (map : OrderedMap α) : OrderedMap β :=
  ⟨map.entries.map fun entry => (entry.1, f entry.2), map.index,
    by simp [map.index_eq, Function.comp_def], by
      have := map.distinct
      simpa [Function.comp_def] using this⟩

@[simp] theorem toList_mapValues (f : α → β) (map : OrderedMap α) :
    (map.mapValues f).toList = map.toList.map fun entry => (entry.1, f entry.2) := by
  simp [mapValues, toList]

@[simp] theorem keys_mapValues (f : α → β) (map : OrderedMap α) :
    (map.mapValues f).keys = map.keys := by
  simp [keys, Function.comp_def]

@[simp] theorem values_mapValues (f : α → β) (map : OrderedMap α) :
    (map.mapValues f).values = map.values.map f := by
  simp [values, Function.comp_def]

@[simp] theorem size_mapValues (f : α → β) (map : OrderedMap α) :
    (map.mapValues f).size = map.size := by
  rw [← length_keys, keys_mapValues, length_keys]

theorem entryAt?_mapValues (f : α → β) (map : OrderedMap α) (i : Nat) :
    (map.mapValues f).entryAt? i = (map.entryAt? i).map fun entry => (entry.1, f entry.2) := by
  simp [entryAt?_eq]

theorem get?_mapValues (f : α → β) (map : OrderedMap α) (key : String) :
    (map.mapValues f).get? key = (map.get? key).map f := by
  simp only [get?, position?_eq, keys_mapValues, entryAt?_mapValues]
  cases map.keys.idxOf? key with
  | none => rfl
  | some i => simp [Function.comp_def]

@[simp] theorem mapValues_empty (f : α → β) : (∅ : OrderedMap α).mapValues f = ∅ :=
  ext_toList (by rw [toList_mapValues, toList_empty, toList_empty, List.map_nil])

theorem mapValues_congr {f g : α → β} (same : ∀ value ∈ map.values, f value = g value) :
    map.mapValues f = map.mapValues g := by
  apply ext_toList
  rw [toList_mapValues, toList_mapValues]
  refine List.map_congr_left fun entry member => ?_
  rw [same entry.2 (mem_values.mpr ⟨entry.1, member⟩)]

theorem mapValues_eq_self {f : α → α} (same : ∀ value ∈ map.values, f value = value) :
    map.mapValues f = map := by
  apply ext_toList
  rw [mapValues_congr same, toList_mapValues]
  exact List.map_id _

end EntitySchema.OrderedMap
