import EntitySchema.Compact.Reader
import EntitySchema.Proofs.Outcome
import Mathlib.Algebra.Group.Nat.Defs
import Mathlib.Data.List.Basic

/-! Reading what has been written. A decoder reads some bytes as a value if it does so
in front of any others; such readings compose as the decoders do. -/
namespace EntitySchema

theorem foldl_bigEndian (count value start : Nat) :
    (bigEndian count value).foldl (fun value byte => value * 256 + byte.toNat) start =
      start * 256 ^ count + value % 256 ^ count := by
  induction count generalizing start with
  | zero => simp [bigEndian, Nat.mod_one]
  | succ count ih =>
    have byte : (value >>> (8 * count)).toUInt8.toNat = value / 256 ^ count % 256 := by
      rw [Nat.shiftRight_eq_div_pow, Nat.pow_mul]
      simp
    rw [bigEndian, List.foldl_cons, ih, byte, Nat.pow_succ, Nat.mod_mul, Nat.add_mul]
    rw [Nat.mul_assoc, Nat.mul_comm 256, Nat.mul_comm (value / 256 ^ count % 256)]
    omega

/-- Written bytes stand for the number, reduced to the width they have. -/
theorem ofBigEndian_bigEndian (count value : Nat) :
    ofBigEndian (bigEndian count value) = value % 256 ^ count := by
  rw [ofBigEndian, foldl_bigEndian, Nat.zero_mul, Nat.zero_add]

theorem length_of_splitBytesFrom {taken bytes front rest : List UInt8} {count : Nat}
    (split : splitBytesFrom taken count bytes = some (front, rest)) :
    front.length = taken.length + count := by
  induction count generalizing taken bytes with
  | zero =>
    obtain ⟨rfl, -⟩ : taken.reverse = front ∧ bytes = rest := by
      simpa [splitBytesFrom] using split
    simp
  | succ count ih =>
    cases bytes with
    | nil => cases split
    | cons byte bytes =>
      rw [ih split, List.length_cons]
      omega

namespace Compact

variable {α β : Type} {decoder : Decoder α} {front back bytes : List UInt8} {value : α}

/-- A decoder reads the bytes as the value, whatever follows them. -/
def Reads (decoder : Decoder α) (bytes : List UInt8) (value : α) : Prop :=
  ∀ rest offset, decoder ⟨bytes ++ rest, offset⟩ = .ok value ⟨rest, offset + bytes.length⟩

namespace Reads

theorem pure (value : α) : Reads (pure value) [] value := fun _ _ => rfl

/-- After a first reading, the rest of the bytes is left to what follows. -/
theorem run_bind {f : α → Decoder β} (first : Reads decoder front value) (rest : List UInt8)
    (offset : Nat) :
    (decoder >>= f) ⟨front ++ rest, offset⟩ = f value ⟨rest, offset + front.length⟩ :=
  bind_of_ran (first rest offset)

theorem bind {f : α → Decoder β} {result : β} (first : Reads decoder front value)
    (second : Reads (f value) back result) : Reads (decoder >>= f) (front ++ back) result := by
  intro rest offset
  rw [List.append_assoc, first.run_bind, second, List.length_append, Nat.add_assoc]

theorem map {f : α → β} (read : Reads decoder bytes value) :
    Reads (f <$> decoder) bytes (f value) := by
  intro rest offset
  change EStateM.map f decoder _ = _
  unfold EStateM.map
  rw [read]

end Reads

open Reader

theorem reads_take (bytes : List UInt8) : Reads (take bytes.length) bytes bytes := by
  intro rest offset
  simp only [take, splitBytes_append]

theorem reads_number (count n : Nat) :
    Reads (number count) (bigEndian count n) (n % 256 ^ count) := by
  rw [← ofBigEndian_bigEndian]
  have read := reads_take (bigEndian count n)
  rw [length_bigEndian] at read
  exact read.map

theorem reads_u8 (byte : UInt8) : Reads u8 [byte] byte := by
  have read := (reads_number 1 byte.toNat).map (f := Nat.toUInt8)
  have written : bigEndian 1 byte.toNat = [byte] := by simp [bigEndian]
  have narrow : (byte.toNat % 256 ^ 1).toUInt8 = byte := by
    apply UInt8.toNat_inj.mp
    simp
  rwa [written, narrow] at read

theorem reads_u16 (n : Nat) : Reads u16 (bigEndian 2 n) n.toUInt16 := by
  have read := (reads_number 2 n).map (f := Nat.toUInt16)
  have narrow : (n % 256 ^ 2).toUInt16 = n.toUInt16 := by
    apply UInt16.toNat_inj.mp
    simp
  rwa [narrow] at read

theorem reads_u32 (n : Nat) : Reads u32 (bigEndian 4 n) n.toUInt32 := by
  have read := (reads_number 4 n).map (f := Nat.toUInt32)
  have narrow : (n % 256 ^ 4).toUInt32 = n.toUInt32 := by
    apply UInt32.toNat_inj.mp
    simp
  rwa [narrow] at read

theorem reads_u64 (n : Nat) : Reads u64 (bigEndian 8 n) n.toUInt64 := by
  have read := (reads_number 8 n).map (f := Nat.toUInt64)
  have narrow : (n % 256 ^ 8).toUInt64 = n.toUInt64 := by
    apply UInt64.toNat_inj.mp
    simp
  rwa [narrow] at read

/-- Items written one behind the other are read one after the other. -/
theorem reads_readMany {γ : Type} {write : γ → List UInt8} {result : γ → α} {items : List γ}
    (each : ∀ item ∈ items, Reads decoder (write item) (result item)) :
    Reads (readMany decoder [] items.length) (items.flatMap write) (items.map result) := by
  suffices general : ∀ read : List α,
      Reads (readMany decoder read items.length) (items.flatMap write)
        (read.reverse ++ items.map result) by
    exact general []
  intro read
  induction items generalizing read with
  | nil =>
    intro rest offset
    simp [readMany]
  | cons item items ih =>
    intro rest offset
    have others := ih (fun other member => each other (List.mem_cons_of_mem _ member))
      (result item :: read) rest (offset + (write item).length)
    simp only [List.length_cons, readMany, List.flatMap_cons, List.append_assoc]
    rw [each item List.mem_cons_self]
    simpa [Nat.add_assoc] using others

theorem length_of_take {count : Nat} : Yields (take count) fun bytes => bytes.length = count := by
  intro reader bytes after read
  simp only [take, splitBytes] at read
  split at read
  · rename_i taken rest split
    cases read
    simpa using length_of_splitBytesFrom split
  · cases read

/-- If every item has a property, all of those read have it, and there are as many as
were asked for. -/
theorem yields_readMany {P : α → Prop} (each : Yields decoder P) (count : Nat) :
    Yields (readMany decoder [] count) fun items =>
      items.length = count ∧ ∀ item ∈ items, P item := by
  suffices general : ∀ read : List α, (∀ item ∈ read, P item) →
      Yields (readMany decoder read count) fun items =>
        items.length = read.length + count ∧ ∀ item ∈ items, P item by
    simpa using general [] (by simp)
  induction count with
  | zero =>
    intro read known reader items after ran
    cases ran
    simpa using known
  | succ count ih =>
    intro read known reader items after ran
    simp only [readMany] at ran
    split at ran
    · rename_i new middle started
      have holds := each reader new middle started
      obtain ⟨length, all⟩ := ih (new :: read) (by simpa [holds] using known) middle items after ran
      exact ⟨by simpa [Nat.add_assoc, Nat.add_comm 1] using length, all⟩
    · cases ran

end Compact
end EntitySchema
