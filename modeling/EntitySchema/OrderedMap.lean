import Std.Data.HashMap

/-! Finite maps from text to values that remember the order of first insertion.
The hash index is determined by the keys, so two maps with the same entries are
equal. Every operation is described by its effect on `toList`. -/
namespace EntitySchema

/-- The position of each key in a list of distinct keys. -/
def positionsOf (keys : List String) : Std.HashMap String Nat :=
  keys.zipIdx.foldl (fun index entry => index.insert entry.1 entry.2) ∅

theorem positionsOf_append (keys : List String) (key : String) :
    positionsOf (keys ++ [key]) = (positionsOf keys).insert key keys.length := by
  simp [positionsOf, List.zipIdx_append, List.foldl_append]

theorem getElem?_positionsOf (keys : List String) (distinct : keys.Nodup) (key : String) :
    (positionsOf keys)[key]? = keys.idxOf? key := by
  suffices h : ∀ reversed : List String, reversed.reverse.Nodup →
      (positionsOf reversed.reverse)[key]? = reversed.reverse.idxOf? key by
    simpa using h keys.reverse (by simpa using distinct)
  intro reversed
  induction reversed with
  | nil => intro _; simp [positionsOf]
  | cons last front ih =>
    intro distinct
    rw [List.reverse_cons] at distinct ⊢
    have fresh : last ∉ front.reverse := by grind
    rw [positionsOf_append, Std.HashMap.getElem?_insert, ih (by grind)]
    by_cases h : last = key
    · subst h
      simp [List.idxOf?, List.findIdx?_append] at fresh ⊢
      rw [List.findIdx?_eq_none_iff.mpr (by grind)]
      simp
    · simp [List.idxOf?, List.findIdx?_append, h]

/-- An insertion-ordered map. -/
structure OrderedMap (α : Type) where
  entries : Array (String × α)
  index : Std.HashMap String Nat
  index_eq : index = positionsOf (entries.toList.map Prod.fst)
  distinct : (entries.toList.map Prod.fst).Nodup

namespace OrderedMap

variable {α : Type}

def toList (map : OrderedMap α) : List (String × α) := map.entries.toList

def keys (map : OrderedMap α) : List String := map.toList.map Prod.fst

def values (map : OrderedMap α) : List α := map.toList.map Prod.snd

def size (map : OrderedMap α) : Nat := map.entries.size

def isEmpty (map : OrderedMap α) : Bool := map.entries.isEmpty

theorem ext_toList {a b : OrderedMap α} (same : a.toList = b.toList) : a = b := by
  obtain ⟨ea, ia, ha, _⟩ := a
  obtain ⟨eb, ib, hb, _⟩ := b
  obtain rfl : ea = eb := Array.ext' same
  subst ha hb
  rfl

def empty : OrderedMap α := ⟨#[], ∅, rfl, List.nodup_nil⟩

instance : EmptyCollection (OrderedMap α) := ⟨empty⟩

instance : Inhabited (OrderedMap α) := ⟨empty⟩

@[simp] theorem toList_empty : (∅ : OrderedMap α).toList = [] := rfl

/-- The position of a key in insertion order. -/
def position? (map : OrderedMap α) (key : String) : Option Nat := map.index[key]?

theorem position?_eq (map : OrderedMap α) (key : String) :
    map.position? key = map.keys.idxOf? key := by
  rw [position?, map.index_eq]
  exact getElem?_positionsOf _ map.distinct _

theorem position?_eq_some {map : OrderedMap α} {key : String} {i : Nat}
    (found : map.position? key = some i) : ∃ h : i < map.entries.size, map.entries[i].1 = key := by
  rw [position?_eq, List.idxOf?, List.findIdx?_eq_some_iff_getElem] at found
  obtain ⟨h, same, _⟩ := found
  exact ⟨by simpa [keys, toList] using h, by simpa [keys, toList] using same⟩

theorem position?_eq_none {map : OrderedMap α} {key : String} :
    map.position? key = none ↔ key ∉ map.keys := by
  rw [position?_eq, List.idxOf?_eq_none_iff]

def contains (map : OrderedMap α) (key : String) : Bool := (map.position? key).isSome

/-- The entry at a position in insertion order. -/
def entryAt? (map : OrderedMap α) (i : Nat) : Option (String × α) := map.entries[i]?

def get? (map : OrderedMap α) (key : String) : Option α :=
  (map.position? key).bind fun i => (map.entryAt? i).map Prod.snd

theorem keys_set (entries : Array (String × α)) (i : Nat) (h : i < entries.size) (value : α) :
    (entries.set i (entries[i].1, value)).toList.map Prod.fst = entries.toList.map Prod.fst := by
  apply List.ext_getElem <;> simp [List.getElem_set]
  intro j _ same
  subst same
  rfl

/-- Replaces the value at a position; its key and all other entries stay. -/
def setAt (map : OrderedMap α) (i : Nat) (value : α) : OrderedMap α :=
  if h : i < map.entries.size then
    ⟨map.entries.set i (map.entries[i].1, value), map.index,
      by rw [keys_set, map.index_eq], by rw [keys_set]; exact map.distinct⟩
  else map

/-- Adds an entry at the end, or replaces the value where the key already is. -/
def insert (map : OrderedMap α) (key : String) (value : α) : OrderedMap α :=
  match h : map.position? key with
  | some i => map.setAt i value
  | none =>
    let index := map.index.insert key map.entries.size
    ⟨map.entries.push (key, value), index,
      by simp [index, map.index_eq, positionsOf_append],
      by
        have fresh := position?_eq_none.mp h
        have := map.distinct
        simp only [keys, toList] at fresh
        grind⟩

theorem toList_insert_of_not_mem {map : OrderedMap α} {key : String} (fresh : key ∉ map.keys)
    (value : α) : (map.insert key value).toList = map.toList ++ [(key, value)] := by
  rw [insert]
  split
  · rename_i i found
    rw [position?_eq_none.mpr fresh] at found
    contradiction
  · simp [toList]

theorem toList_insert_of_position? {map : OrderedMap α} {key : String} {i : Nat}
    (found : map.position? key = some i) (value : α) :
    (map.insert key value).toList = map.toList.set i (key, value) := by
  obtain ⟨h, same⟩ := position?_eq_some found
  rw [insert]
  split
  · rename_i j other
    obtain rfl : i = j := Option.some.inj (found.symm.trans other)
    simp [setAt, h, same, toList]
  · simp_all

theorem keys_insert_of_mem {map : OrderedMap α} {key : String} (known : key ∈ map.keys)
    (value : α) : (map.insert key value).keys = map.keys := by
  cases found : map.position? key with
  | none => exact absurd known (position?_eq_none.mp found)
  | some i =>
    obtain ⟨h, same⟩ := position?_eq_some found
    rw [keys, toList_insert_of_position? found]
    subst same
    simpa [toList, keys] using keys_set map.entries i h value

/-- Applies a function to the value of a key, if there is one. -/
def modify (map : OrderedMap α) (key : String) (change : α → α) : OrderedMap α :=
  match map.get? key with
  | some value => map.insert key (change value)
  | none => map

/-- Inserts entries from left to right. -/
def ofList (entries : List (String × α)) : OrderedMap α :=
  entries.foldl (fun map entry => map.insert entry.1 entry.2) ∅

end OrderedMap
end EntitySchema
