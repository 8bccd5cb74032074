import EntitySchema.Compact.Dictionary
import EntitySchema.Proofs.OrderedMap
import EntitySchema.Proofs.Reading
import EntitySchema.Proofs.Utf8
import Mathlib.Data.List.Perm.Subperm
import Mathlib.Tactic.Tauto

/-! The string table: what it holds once a row of strings has been entered, when that
succeeds, and that it is read back as it was written. -/
namespace EntitySchema.Compact

namespace Dictionary

variable {dictionary after : Dictionary} {text : String} {texts : List String}

/-- The table that the written strings are read back as. -/
def table (dictionary : Dictionary) : StringTable := ⟨dictionary.strings.keys.toArray⟩

theorem idOf?_eq (dictionary : Dictionary) (text : String) :
    dictionary.idOf? text = (dictionary.strings.keys.idxOf? text).map Nat.toUInt16 := by
  rw [idOf?, OrderedMap.position?_eq]

/-- What entering one string does: it is known, or it takes the last place, or the table is
full and stays as it is. -/
theorem enter_cases (dictionary : Dictionary) (text : String) :
    (∃ i, dictionary.strings.position? text = some i ∧
      enter text dictionary = .ok i.toUInt16 dictionary) ∨
    (text ∉ dictionary.strings.keys ∧ dictionary.size < maxStrings ∧
      enter text dictionary =
        .ok dictionary.size.toUInt16 ⟨dictionary.strings.insert text ()⟩) ∨
    (text ∉ dictionary.strings.keys ∧ maxStrings ≤ dictionary.size ∧
      enter text dictionary = .error (.dictionaryOverflow maxStrings) dictionary) := by
  cases found : dictionary.strings.position? text with
  | some i =>
    refine .inl ⟨i, rfl, ?_⟩
    rw [enter, found]
  | none =>
    have new := OrderedMap.position?_eq_none.mp found
    by_cases room : dictionary.size < maxStrings
    · refine .inr (.inl ⟨new, room, ?_⟩)
      rw [enter, found]
      exact if_pos room
    · refine .inr (.inr ⟨new, Nat.le_of_not_lt room, ?_⟩)
      rw [enter, found]
      exact if_neg room

/-- A string that has been entered is known, and there has been room for all. -/
theorem enter_ok {id : UInt16} (entered : enter text dictionary = .ok id after)
    (small : dictionary.size ≤ maxStrings) :
    (∀ known, known ∈ after.strings.keys ↔ known = text ∨ known ∈ dictionary.strings.keys) ∧
      after.size ≤ maxStrings := by
  rcases enter_cases dictionary text with ⟨i, found, same⟩ | ⟨-, room, same⟩ | ⟨-, -, same⟩
  · cases same.symm.trans entered
    refine ⟨fun known => ⟨Or.inr, ?_⟩, small⟩
    rintro (rfl | old)
    · exact List.mem_of_getElem? (OrderedMap.position?_eq_some_iff.mp found)
    · exact old
  · cases same.symm.trans entered
    refine ⟨fun known => OrderedMap.mem_keys_insert, ?_⟩
    exact Nat.le_trans (OrderedMap.size_insert_le ..) room
  · cases same.symm.trans entered

theorem enterAll_ok (entered : enterAll texts dictionary = .ok () after)
    (small : dictionary.size ≤ maxStrings) :
    (∀ known, known ∈ after.strings.keys ↔ known ∈ texts ∨ known ∈ dictionary.strings.keys) ∧
      after.size ≤ maxStrings := by
  induction texts generalizing dictionary with
  | nil =>
    cases entered
    exact ⟨fun known => by simp, small⟩
  | cons text texts ih =>
    simp only [enterAll] at entered
    split at entered
    · rename_i id middle first
      obtain ⟨one, fits⟩ := enter_ok first small
      obtain ⟨others, room⟩ := ih entered fits
      refine ⟨fun known => ?_, room⟩
      rw [others, one, List.mem_cons]
      tauto
    · cases entered

/-- Strings can be entered as long as all of them come from a small enough stock. -/
theorem enterAll_total {stock : List String} (limited : stock.length ≤ maxStrings)
    (known : ∀ text ∈ dictionary.strings.keys, text ∈ stock)
    (new : ∀ text ∈ texts, text ∈ stock) :
    ∃ after, enterAll texts dictionary = .ok () after := by
  induction texts generalizing dictionary with
  | nil => exact ⟨dictionary, rfl⟩
  | cons text texts ih =>
    have others : ∀ other ∈ texts, other ∈ stock := fun other member =>
      new other (List.mem_cons_of_mem _ member)
    simp only [enterAll]
    rcases enter_cases dictionary text with ⟨i, -, same⟩ | ⟨-, -, same⟩ | ⟨fresh, full, same⟩
    · simp only [same]
      exact ih known others
    · simp only [same]
      refine ih (fun other member => ?_) others
      rcases OrderedMap.mem_keys_insert.mp member with rfl | old
      · exact new _ List.mem_cons_self
      · exact known other old
    · have room : dictionary.size < maxStrings := by
        have distinct : (text :: dictionary.strings.keys).Nodup :=
          List.nodup_cons.mpr ⟨fresh, dictionary.strings.keys_nodup⟩
        have inside : text :: dictionary.strings.keys ⊆ stock := by
          intro other member
          rcases List.mem_cons.mp member with rfl | old
          · exact new _ List.mem_cons_self
          · exact known other old
        have fewer := (List.subperm_of_subset distinct inside).length_le
        rw [List.length_cons, OrderedMap.length_keys] at fewer
        exact Nat.lt_of_lt_of_le fewer limited
      exact absurd room (Nat.not_lt_of_le full)

theorem serialize_total (short : ∀ text ∈ dictionary.strings.keys,
    (utf8 text).length ≤ maxStringBytes) : ∃ table, dictionary.serialize = .ok table := by
  have entries : ∀ texts : List String, (∀ text ∈ texts, (utf8 text).length ≤ maxStringBytes) →
      ∃ entries, texts.mapM entryBytes = .ok entries := by
    intro texts short
    induction texts with
    | nil => exact ⟨[], rfl⟩
    | cons text texts ih =>
      obtain ⟨entries, written⟩ :=
        ih fun other member => short other (List.mem_cons_of_mem _ member)
      have entry : entryBytes text = .ok (bigEndian 2 (utf8 text).length ++ utf8 text) :=
        if_pos (short text List.mem_cons_self)
      exact ⟨_ :: entries, mapM_eq_ok_iff.mpr (.cons entry (mapM_eq_ok_iff.mp written))⟩
  obtain ⟨entryList, written⟩ := entries _ short
  exact ⟨_, bind_eq_ok_iff.mpr ⟨entryList, written, rfl⟩⟩

/-- A string that has been entered is found under its number in the table read back. -/
theorem lookup_idOf (small : dictionary.size ≤ maxStrings)
    (known : text ∈ dictionary.strings.keys) :
    dictionary.table.lookup ((dictionary.idOf? text).getD 0) = .ok text := by
  obtain ⟨i, found⟩ : ∃ i, dictionary.strings.position? text = some i := by
    cases found : dictionary.strings.position? text with
    | none => exact absurd known (OrderedMap.position?_eq_none.mp found)
    | some i => exact ⟨i, rfl⟩
  have below : i < 65536 :=
    Nat.lt_of_lt_of_le (OrderedMap.lt_size_of_position? found) small
  have same : i.toUInt16.toNat = i := by
    simpa using below
  simp [idOf?, found, StringTable.lookup, table, same, OrderedMap.position?_eq_some_iff.mp found]

end Dictionary

theorem reads_readEntry {text : String} {bytes : List UInt8} (position : Nat)
    (written : Dictionary.entryBytes text = .ok bytes) :
    Reads (StringTable.readEntry position) bytes text := by
  simp only [Dictionary.entryBytes] at written
  split at written
  · rename_i short
    cases written
    have length : (utf8 text).length.toUInt16.toNat = (utf8 text).length := by
      simpa [maxStringBytes] using Nat.lt_succ_of_le short
    apply Reads.bind (reads_u16 _)
    rw [length, ← List.append_nil (utf8 text), List.length_append]
    apply Reads.bind (reads_take _)
    rw [textOfUtf8?_utf8]
    exact Reads.pure text
  · cases written

theorem reads_readEntries {texts : List String} {entries : List (List UInt8)}
    (written : List.Forall₂ (fun text bytes => Dictionary.entryBytes text = .ok bytes) texts
      entries)
    (strings : Array String) :
    Reads (StringTable.readEntries ⟨strings⟩ texts.length) entries.flatten
      ⟨strings ++ texts.toArray⟩ := by
  induction written generalizing strings with
  | nil =>
    intro rest offset
    simp [StringTable.readEntries]
  | @cons text bytes texts entries first _ ih =>
    intro rest offset
    have others := ih (strings.push text) rest (offset + bytes.length)
    simp only [List.length_cons, StringTable.readEntries, List.flatten_cons, List.append_assoc]
    rw [reads_readEntry _ first]
    simpa [Nat.add_assoc] using others

/-- A written table is read back as it was. -/
theorem reads_table {dictionary : Dictionary} {bytes : List UInt8}
    (small : dictionary.size ≤ maxStrings) (written : dictionary.serialize = .ok bytes) :
    Reads StringTable.read bytes dictionary.table := by
  simp only [Dictionary.serialize] at written
  cases entries : dictionary.strings.keys.mapM Dictionary.entryBytes with
  | error problem =>
    rw [entries] at written
    cases written
  | ok entryList =>
    rw [entries] at written
    cases written
    have counted : dictionary.size.toUInt32.toNat = dictionary.strings.keys.length := by
      have below : dictionary.size ≤ 65536 := small
      have narrow : dictionary.size < UInt32.size := by
        rw [show UInt32.size = 4294967296 by decide]
        omega
      rw [OrderedMap.length_keys]
      exact UInt32.toNat_ofNat_of_lt narrow
    apply Reads.bind (reads_u32 _)
    rw [counted]
    simpa [Dictionary.table] using reads_readEntries (mapM_eq_ok_iff.mp entries) #[]

/-- The fields that name a string are read as that string. -/
theorem reads_readString {dictionary : Dictionary} {text : String}
    (small : dictionary.size ≤ maxStrings) (known : text ∈ dictionary.strings.keys) :
    Reads dictionary.table.readString (bigEndian 2 ((dictionary.idOf? text).getD 0).toNat)
      text := by
  rw [← List.append_nil (bigEndian _ _)]
  apply Reads.bind (reads_u16 _)
  have same : ((dictionary.idOf? text).getD 0).toNat.toUInt16 = (dictionary.idOf? text).getD 0 := by
    simp
  rw [same, Dictionary.lookup_idOf small known]
  exact Reads.pure text

end EntitySchema.Compact
