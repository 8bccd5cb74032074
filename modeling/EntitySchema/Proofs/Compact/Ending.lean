import EntitySchema.Proofs.Compact.Safety

/-! Encodings tell by themselves where they end. Decoding one reads all of it and nothing
behind it, so whatever is cut off is missed, and whatever is added is not. That also holds
of databases that cannot be brought back because a base names no class. -/
namespace EntitySchema.Compact

variable {db : Database} {bytes : List UInt8}

/-- An encoding that is read in part is read as a beginning of it that could be read. -/
theorem exhausts_of_cut {front rest missing : List UInt8} {start : Database}
    (read : Reads readDatabase (front ++ rest ++ missing) start) (cut : missing ≠ [])
    (settled : Settled readDatabase front rest) : Exhausts readDatabase front rest := by
  have whole := read [] 0
  rw [List.append_nil, List.append_assoc] at whole
  cases settled with
  | reads other readFront =>
    rw [readFront (rest ++ missing) 0] at whole
    injection whole with _ left
    injection left with unread _
    exact absurd (List.append_eq_nil_iff.mp unread).2 cut
  | refuses problem refused =>
    rw [refused (rest ++ missing) 0] at whole
    cases whole
  | exhausts short => exact short

/-- Decoding the beginning of an encoding fails for want of bytes and for no other reason. -/
theorem decode_take (encoded : encode db = .ok bytes) {n : Nat} (enough : magic.length ≤ n)
    (less : n < bytes.length) :
    ∃ offset needed, offset ≤ n ∧ n < offset + needed ∧
      decode (bytes.take n) = .error (.ofCause (.format (.truncated offset needed))) := by
  have size : (bytes.take n).length = n := List.length_take_of_le (Nat.le_of_lt less)
  have cut : bytes.drop n ≠ [] := by
    rw [ne_eq, List.drop_eq_nil_iff]
    omega
  have read := reads_encoded encoded
  rcases readDatabase_cases (bytes.take n) with short | ⟨front, rest, same, settled⟩
  · omega
  · rw [← List.take_append_drop n bytes, same] at read
    obtain ⟨needed, fewer, failed⟩ := exhausts_of_cut read cut settled
    have ran := failed 0
    rw [Nat.zero_add, ← same] at ran
    rw [same, List.length_append] at size
    exact ⟨front.length, needed, by omega, by omega, decode_of_failed ran⟩

/-- Any encoding is missed where it is cut off, and ignores what is added to it. -/
theorem self_delimiting (encoded : encode db = .ok bytes) :
    (∀ n < magic.length, decode (bytes.take n) = .error (.ofCause (.format .badMagic))) ∧
      (∀ n, magic.length ≤ n → n < bytes.length → ∃ offset needed, offset ≤ n ∧
        n < offset + needed ∧
        decode (bytes.take n) = .error (.ofCause (.format (.truncated offset needed)))) ∧
      ∀ more, decode (bytes ++ more) = decode bytes := by
  refine ⟨fun n few => ?_, fun n enough less => decode_take encoded enough less, fun more => ?_⟩
  · exact (decode_of_short (Nat.lt_of_le_of_lt (List.length_take_le n bytes) few)).2
  · have whole := decode_of_reads (reads_encoded encoded) []
    rw [List.append_nil] at whole
    rw [whole, decode_of_reads (reads_encoded encoded)]

namespace Orphan

def orphan : EntityClass := { EntityClass.plain .point "Orphan" with bases := [.named "ghost"] }

/-- A class whose base is nowhere. -/
def database : Database := Database.empty.define orphan

def dictionary : Dictionary := ⟨((∅ : OrderedMap Unit).insert "Orphan" ()).insert "ghost" ()⟩

def table : List UInt8 := [0, 0, 0, 2] ++ [0, 6] ++ utf8 "Orphan" ++ [0, 5] ++ utf8 "ghost"

def encoding : List UInt8 :=
  [0x46, 0x47, 0x44, 1] ++ List.replicate 16 0 ++ [0, 0, 0, 1] ++ table ++
    [1, 1, 0, 0, 0, 0, 0, 0, 1]

theorem toList_classes : database.classes.toList = [("orphan", orphan)] := by
  rw [database, Database.define, OrderedMap.toList_insert_of_not_mem List.not_mem_nil]
  rfl

theorem layout_database : layout database = .ofFields [.byte 1, .byte 1, .byte 0, .byte 0,
    .byte 0, .text "Orphan", .text "ghost"] := by
  rw [layout, OrderedMap.values, toList_classes]
  rfl

theorem keys_dictionary : dictionary.strings.keys = ["Orphan", "ghost"] := by
  simp [dictionary, OrderedMap.keys_insert, OrderedMap.keys_empty]

theorem encode_database : encode database = .ok encoding := by
  have size : database.size = 1 := by
    rw [Database.size, ← OrderedMap.length_toList, toList_classes]
    rfl
  refine encode_eq_ok_iff.mpr ⟨dictionary, table, ?_, ?_, ?_, ?_, ?_⟩
  · rw [layout_database]
    simp [Layout.ofFields, textsOf, Dictionary.enterAll, Dictionary.enter, dictionary,
      Dictionary.empty, Dictionary.size, OrderedMap.position?_eq, ← OrderedMap.length_keys,
      OrderedMap.keys_insert, OrderedMap.keys_empty, List.idxOf?_cons, maxStrings, UInt16.size]
  · rw [layout_database]
    rfl
  · rw [size]
    decide
  · rw [Dictionary.serialize, Dictionary.size, ← OrderedMap.length_keys, keys_dictionary]
    decide
  · rw [layout_database, headerBytes, size]
    simp only [Layout.ofFields, List.flatMap_cons, List.flatMap_nil, fieldBytes,
      Dictionary.idOf?_eq, keys_dictionary]
    decide

end Orphan

theorem self_delimiting_orphan : encode Orphan.database = .ok Orphan.encoding ∧
    (∀ n < magic.length, decode (Orphan.encoding.take n) = .error (.ofCause (.format .badMagic))) ∧
      (∀ n, magic.length ≤ n → n < Orphan.encoding.length → ∃ offset needed, offset ≤ n ∧
        n < offset + needed ∧
        decode (Orphan.encoding.take n) =
          .error (.ofCause (.format (.truncated offset needed)))) ∧
      ∀ more, decode (Orphan.encoding ++ more) = decode Orphan.encoding :=
  ⟨Orphan.encode_database, self_delimiting Orphan.encode_database⟩

end EntitySchema.Compact
