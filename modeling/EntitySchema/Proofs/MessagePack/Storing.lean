import EntitySchema.Proofs.MessagePack.Steady
import EntitySchema.Proofs.Reading

/-! Shortest encodings read back. A value comes back as it was, except that a number with a
sign that it does not need comes back without one. -/
namespace EntitySchema.MessagePack

variable {α β γ : Type} {reader : List UInt8 → Option (α × List UInt8)} {bytes : List UInt8}
  {value : α}

/-- The bytes are read as the value, whatever follows them. -/
def Reads (reader : List UInt8 → Option (α × List UInt8)) (bytes : List UInt8) (value : α) : Prop :=
  ∀ rest, reader (bytes ++ rest) = some (value, rest)

/-- Without the last of its bytes, no value is read back from what was read whole. -/
theorem Reads.eq_none_of_take (read : Reads reader bytes value) (steady : Steady reader) {n : Nat}
    (less : n < bytes.length) : reader (bytes.take n) = none := by
  cases part : reader (bytes.take n) with
  | none => rfl
  | some result =>
    obtain ⟨other, rest⟩ := result
    have whole := read []
    have longer := steady _ _ _ part (bytes.drop n)
    rw [List.take_append_drop] at longer
    rw [List.append_nil, longer, Option.some.injEq, Prod.mk.injEq, List.append_eq_nil_iff] at whole
    have missing := List.drop_eq_nil_iff.mp whole.2.2
    omega

theorem reads_readNumber {count n : Nat} (fits : n < 256 ^ count) :
    Reads (readNumber count) (bigEndian count n) n := by
  intro rest
  have split := splitBytes_append (bigEndian count n) rest
  rw [length_bigEndian] at split
  rw [readNumber, split, Option.map_some, ofBigEndian_bigEndian, Nat.mod_eq_of_lt fits]

/-- A number behind a tag that announces as many bytes as it has. -/
theorem reads_tagged (tag : UInt8) (head : Nat → Head) (count : Nat) {n : Nat}
    (announced : ∀ rest, readHead (tag :: rest) = readLength head count rest)
    (fits : n < 256 ^ count) : Reads readHead (tagged tag count n) (head n) := by
  intro rest
  rw [tagged, List.cons_append, announced, readLength, reads_readNumber fits]
  rfl

theorem reads_unsignedBytes {n : Nat} (fits : n < UInt64.size) :
    Reads readHead (unsignedBytes n) (.whole (.unsigned n)) := by
  have wide tag := reads_tagged tag fun n => .whole (.unsigned n)
  rw [unsignedBytes]
  split
  · rename_i small
    intro rest
    have same : n.toUInt8.toNat = n := UInt8.toNat_ofNat_of_lt (Nat.lt_trans small (by decide))
    simp only [List.singleton_append, readHead, same, small, if_true]
  · repeat' split
    · exact wide _ 1 (fun _ => rfl) ‹_›
    · exact wide _ 2 (fun _ => rfl) ‹_›
    · exact wide _ 4 (fun _ => rfl) ‹_›
    · exact wide _ 8 (fun _ => rfl) fits

/-- A negative number of as many bytes as announced, in two's complement. -/
theorem reads_signed {tag : UInt8} {n : Int} (count : Nat)
    (announced : ∀ rest, readHead (tag :: rest) = readSigned (count + 1) rest) (negative : n < 0)
    (least : -(2 ^ (8 * count + 7) : Nat) ≤ n) :
    Reads readHead (tagged tag (count + 1) (n + (256 ^ (count + 1) : Nat)).toNat)
      (.whole (.signed n)) := by
  have half : 256 ^ (count + 1) = 2 * 2 ^ (8 * count + 7) := by
    rw [← Nat.pow_succ', show (256 : Nat) = 2 ^ 8 by rfl, ← Nat.pow_mul]
    rfl
  have read := reads_tagged tag (fun m => .whole (.signed (ofTwosComplement (count + 1) m)))
    (count + 1) announced (n := (n + (256 ^ (count + 1) : Nat)).toNat) (by omega)
  have value : ofTwosComplement (count + 1) (n + (256 ^ (count + 1) : Nat)).toNat = n := by
    have low : 1 <<< (8 * (count + 1) - 1) = 2 ^ (8 * count + 7) := Nat.one_shiftLeft _
    have high : 1 <<< (8 * (count + 1)) = 256 ^ (count + 1) := by
      rw [Nat.one_shiftLeft, Nat.pow_mul]
    rw [ofTwosComplement, low, high, if_neg (by omega)]
    omega
  rwa [value] at read

/-- A small negative number is a tag of its own. -/
theorem reads_negativeTag {n : Int} (least : -32 ≤ n) (negative : n < 0) :
    Reads readHead [(n + UInt8.size).toNat.toUInt8] (.whole (.signed n)) := by
  intro rest
  have value : ((n + UInt8.size).toNat : Int) = n + 256 :=
    Int.toNat_of_nonneg (Int.le_trans (by decide) (Int.add_le_add_right least 256))
  generalize (n + UInt8.size).toNat = m at value
  have byte : m.toUInt8.toNat = m := UInt8.toNat_ofNat_of_lt (by omega : m < 256)
  have same : (m : Int) - 256 = n := by omega
  simp only [List.singleton_append, readHead, byte]
  rw [if_neg (by omega), if_neg (by omega), if_neg (by omega), if_neg (by omega),
    if_pos (by omega), same]

theorem reads_integerBytes {n : Int} (least : Int64.minValue.toInt ≤ n)
    (greatest : n < UInt64.size) :
    Reads readHead (integerBytes n)
      (.whole (if n ≥ 0 then .unsigned n.toNat else .signed n)) := by
  rw [integerBytes]
  by_cases positive : n ≥ 0
  · simp only [positive, if_true]
    exact reads_unsignedBytes (by omega)
  · simp only [positive, if_false]
    have negative := Int.not_le.mp positive
    repeat' split
    · exact reads_negativeTag ‹_› negative
    · exact reads_signed 0 (fun _ => rfl) negative ‹_›
    · exact reads_signed 1 (fun _ => rfl) negative ‹_›
    · exact reads_signed 3 (fun _ => rfl) negative ‹_›
    · exact reads_signed 7 (fun _ => rfl) negative least

theorem reads_stringHead {length : Nat} (fits : length < UInt32.size) :
    Reads readHead (stringHead length) (.string length) := by
  rw [stringHead]
  split
  · intro rest
    have byte : (0xa0 + length).toUInt8.toNat = 0xa0 + length :=
      UInt8.toNat_ofNat_of_lt (by omega : 0xa0 + length < 256)
    simp only [List.singleton_append, readHead, byte]
    rw [if_neg (by omega), if_neg (by omega), if_neg (by omega), if_pos (by omega),
      Nat.add_sub_cancel_left]
  · repeat' split
    · exact reads_tagged _ .string 1 (fun _ => rfl) ‹_›
    · exact reads_tagged _ .string 2 (fun _ => rfl) ‹_›
    · exact reads_tagged _ .string 4 (fun _ => rfl) fits

theorem reads_arrayHead {length : Nat} (fits : length < UInt32.size) :
    Reads readHead (arrayHead length) (.array length) := by
  rw [arrayHead]
  split
  · intro rest
    have byte : (0x90 + length).toUInt8.toNat = 0x90 + length :=
      UInt8.toNat_ofNat_of_lt (by omega : 0x90 + length < 256)
    simp only [List.singleton_append, readHead, byte]
    rw [if_neg (by omega), if_neg (by omega), if_pos (by omega), Nat.add_sub_cancel_left]
  · split
    · exact reads_tagged _ .array 2 (fun _ => rfl) ‹_›
    · exact reads_tagged _ .array 4 (fun _ => rfl) fits

theorem reads_mapHead {length : Nat} (fits : length < UInt32.size) :
    Reads readHead (mapHead length) (.map length) := by
  rw [mapHead]
  split
  · intro rest
    have byte : (0x80 + length).toUInt8.toNat = 0x80 + length :=
      UInt8.toNat_ofNat_of_lt (by omega : 0x80 + length < 256)
    simp only [List.singleton_append, readHead, byte]
    rw [if_neg (by omega), if_pos (by omega), Nat.add_sub_cancel_left]
  · split
    · exact reads_tagged _ .map 2 (fun _ => rfl) ‹_›
    · exact reads_tagged _ .map 4 (fun _ => rfl) fits

/-- Items written one behind the other are read one after the other. -/
theorem reads_readMany {write : γ → List UInt8} {items : List γ} {values : List α}
    (each : List.Forall₂ (fun item value => Reads reader (write item) value) items values) :
    Reads (readMany reader [] items.length) (items.flatMap write) values := by
  suffices general : ∀ read : List α,
      Reads (readMany reader read items.length) (items.flatMap write) (read.reverse ++ values) by
    exact general []
  induction each with
  | nil =>
    intro read rest
    simp [readMany]
  | @cons item value items values first _ ih =>
    intro read rest
    have others := ih (value :: read) rest
    simp only [List.length_cons, readMany, List.flatMap_cons, List.append_assoc]
    rw [first]
    simpa using others

theorem reads_readPair {other : List UInt8 → Option (β × List UInt8)} {back : List UInt8}
    {second : β} (first : Reads reader bytes value) (next : Reads other back second) :
    Reads (readPair reader other) (bytes ++ back) (value, second) := by
  intro rest
  have began := first (back ++ rest)
  simp only [List.append_assoc, readPair, began, next rest, Option.bind_eq_bind, Option.bind_some]
  rfl

/-- The encoding of a value is read as a value, containers being nested as deeply as given. -/
def Stores (depth : Nat) (value read : Value) : Prop := Reads (readValue depth) value.bytes read

variable {depth : Nat}

theorem reads_readValue_of_whole {read : Value} (head : Reads readHead bytes (.whole read)) :
    Reads (readValue depth) bytes read := by
  intro rest
  cases depth <;> simp only [readValue, head rest, Option.bind_some, readContent]

theorem stores_nil : Stores depth .nil .nil := by
  rw [Stores, Value.bytes]
  exact reads_readValue_of_whole fun _ => rfl

theorem stores_bool (flag : Bool) : Stores depth (.bool flag) (.bool flag) := by
  cases flag <;> rw [Stores, Value.bytes] <;> exact reads_readValue_of_whole fun _ => rfl

theorem stores_unsigned {n : Nat} (fits : n < UInt64.size) :
    Stores depth (.unsigned n) (.unsigned n) := by
  rw [Stores, Value.bytes]
  exact reads_readValue_of_whole (reads_unsignedBytes fits)

theorem stores_signed {n : Int} (least : Int64.minValue.toInt ≤ n) (greatest : n < UInt64.size) :
    Stores depth (.signed n) (if n ≥ 0 then .unsigned n.toNat else .signed n) := by
  rw [Stores, Value.bytes]
  exact reads_readValue_of_whole (reads_integerBytes least greatest)

theorem stores_string {text : List UInt8} (short : text.length < UInt32.size) :
    Stores depth (.string text) (.string text) := by
  intro rest
  rw [Value.bytes, List.append_assoc]
  cases depth <;>
    simp only [readValue, reads_stringHead short _, Option.bind_some, readContent,
      splitBytes_append, Option.map_some]

theorem stores_array {items reads : List Value} (short : items.length < UInt32.size)
    (each : List.Forall₂ (Stores depth) items reads) :
    Stores (depth + 1) (.array items) (.array reads) := by
  intro rest
  rw [Value.bytes, List.append_assoc, readValue, reads_arrayHead short, Option.bind_some,
    readContent, Option.bind_some, reads_readMany each]
  rfl

theorem stores_map {entries reads : List (Value × Value)} (short : entries.length < UInt32.size)
    (each : List.Forall₂ (fun entry read => Stores depth entry.1 read.1 ∧
      Stores depth entry.2 read.2) entries reads) :
    Stores (depth + 1) (.map entries) (.map reads) := by
  have pairs : List.Forall₂ (fun entry read => Reads (readPair (readValue depth) (readValue depth))
      (entry.1.bytes ++ entry.2.bytes) read) entries reads :=
    each.imp fun entry read stored => reads_readPair stored.1 stored.2
  intro rest
  rw [Value.bytes, List.append_assoc, readValue, reads_mapHead short, Option.bind_some,
    readContent, Option.bind_some, reads_readMany pairs]
  rfl

/-- All lengths that occur in a value can be given in 32 bits. -/
inductive Value.Counted : Value → Prop where
  | nil : Counted .nil
  | bool (flag : Bool) : Counted (.bool flag)
  | unsigned (n : Nat) : Counted (.unsigned n)
  | signed (n : Int) : Counted (.signed n)
  | string {text : List UInt8} (short : text.length < UInt32.size) : Counted (.string text)
  | array {items : List Value} (short : items.length < UInt32.size)
      (each : ∀ item ∈ items, Counted item) : Counted (.array items)
  | map {entries : List (Value × Value)} (short : entries.length < UInt32.size)
      (keys : ∀ entry ∈ entries, Counted entry.1)
      (values : ∀ entry ∈ entries, Counted entry.2) : Counted (.map entries)

end EntitySchema.MessagePack
