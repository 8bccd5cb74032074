import EntitySchema.Compact.Decoding
import EntitySchema.Proofs.Reading

/-! What decoders do to the bytes in front of them: they read some as a value or refuse
them, whatever lies behind, or they ask for more than there are. So no decoder sees a
byte behind those that it has read, or one behind the end. -/
namespace EntitySchema.Compact

variable {α β : Type} {decoder : Decoder α} {front back rest : List UInt8} {value : α}
  {problem : FormatProblem}

/-- A decoder refuses the bytes, whatever follows them. -/
def Refuses (decoder : Decoder α) (bytes : List UInt8) (problem : FormatProblem) : Prop :=
  ∀ rest offset,
    decoder ⟨bytes ++ rest, offset⟩ = .error problem ⟨rest, offset + bytes.length⟩

/-- Behind the first bytes, a decoder asks for more than the others. -/
def Exhausts (decoder : Decoder α) (front rest : List UInt8) : Prop :=
  ∃ needed, rest.length < needed ∧ ∀ offset, decoder ⟨front ++ rest, offset⟩ =
    .error (.truncated (offset + front.length) needed) ⟨rest, offset + front.length⟩

/-- What comes of a decoder at the first bytes, with the others behind them. -/
inductive Settled (decoder : Decoder α) (front rest : List UInt8) : Prop
  | reads (value : α) (read : Reads decoder front value)
  | refuses (problem : FormatProblem) (refused : Refuses decoder front problem)
  | exhausts (short : Exhausts decoder front rest)

/-- Whatever bytes a decoder is given, those that it reads settle what comes of it, unless
there are too few. -/
def Confined (decoder : Decoder α) : Prop :=
  ∀ bytes, ∃ front rest, bytes = front ++ rest ∧ Settled decoder front rest

namespace Refuses

theorem first {f : α → Decoder β} (refused : Refuses decoder front problem) :
    Refuses (decoder >>= f) front problem :=
  fun rest offset => bind_of_failed (refused rest offset)

theorem bind {f : α → Decoder β} (read : Reads decoder front value)
    (refused : Refuses (f value) back problem) :
    Refuses (decoder >>= f) (front ++ back) problem := by
  intro rest offset
  rw [List.append_assoc, read.run_bind, refused, List.length_append, Nat.add_assoc]

end Refuses

namespace Exhausts

theorem first {f : α → Decoder β} (short : Exhausts decoder front rest) :
    Exhausts (decoder >>= f) front rest := by
  obtain ⟨needed, more, failed⟩ := short
  exact ⟨needed, more, fun offset => bind_of_failed (failed offset)⟩

theorem bind {f : α → Decoder β} (read : Reads decoder front value)
    (short : Exhausts (f value) back rest) : Exhausts (decoder >>= f) (front ++ back) rest := by
  obtain ⟨needed, more, failed⟩ := short
  refine ⟨needed, more, fun offset => ?_⟩
  rw [List.append_assoc, read.run_bind, failed, List.length_append, Nat.add_assoc]

end Exhausts

theorem Settled.bind {f : α → Decoder β} (read : Reads decoder front value)
    (settled : Settled (f value) back rest) : Settled (decoder >>= f) (front ++ back) rest := by
  cases settled with
  | reads result readBack => exact .reads result (read.bind readBack)
  | refuses problem refused => exact .refuses problem (Refuses.bind read refused)
  | exhausts short => exact .exhausts (Exhausts.bind read short)

namespace Confined

theorem pure (value : α) : Confined (pure value) := fun bytes =>
  ⟨[], bytes, rfl, .reads value (Reads.pure value)⟩

theorem throw (problem : FormatProblem) : Confined (throw problem : Decoder α) := fun bytes =>
  ⟨[], bytes, rfl, .refuses problem fun _ _ => rfl⟩

theorem bind {f : α → Decoder β} (first : Confined decoder)
    (second : ∀ value, Confined (f value)) : Confined (decoder >>= f) := by
  intro bytes
  obtain ⟨front, rest, rfl, settled⟩ := first bytes
  cases settled with
  | reads value read =>
    obtain ⟨back, rest, rfl, settled⟩ := second value rest
    exact ⟨front ++ back, rest, (List.append_assoc ..).symm, settled.bind read⟩
  | refuses problem refused => exact ⟨front, rest, rfl, .refuses problem refused.first⟩
  | exhausts short => exact ⟨front, rest, rfl, .exhausts short.first⟩

theorem map {f : α → β} (confined : Confined decoder) : Confined (f <$> decoder) :=
  confined.bind fun value => pure (f value)

theorem ite {condition : Prop} [Decidable condition] {other : Decoder α}
    (yes : Confined decoder) (no : Confined other) :
    Confined (if condition then decoder else other) := by
  split
  · exact yes
  · exact no

end Confined

theorem splitBytesFrom_of_short {taken bytes : List UInt8} {count : Nat}
    (short : bytes.length < count) : splitBytesFrom taken count bytes = none := by
  induction bytes generalizing taken count with
  | nil =>
    obtain ⟨more, rfl⟩ := Nat.exists_eq_add_one_of_ne_zero (Nat.ne_of_gt short)
    rfl
  | cons byte bytes ih =>
    obtain ⟨more, rfl⟩ := Nat.exists_eq_add_one_of_ne_zero (Nat.ne_zero_of_lt short)
    exact ih (Nat.lt_of_succ_lt_succ short)

open Reader

theorem confined_take (count : Nat) : Confined (take count) := by
  intro bytes
  by_cases enough : count ≤ bytes.length
  · refine ⟨bytes.take count, bytes.drop count, (List.take_append_drop ..).symm,
      .reads (bytes.take count) ?_⟩
    have read := reads_take (bytes.take count)
    rwa [List.length_take_of_le enough] at read
  · have short := Nat.lt_of_not_le enough
    refine ⟨[], bytes, rfl, .exhausts ⟨count, short, fun offset => ?_⟩⟩
    simp only [take, splitBytes, List.nil_append, splitBytesFrom_of_short short]
    rfl

theorem confined_u8 : Confined u8 := (confined_take 1).map.map

theorem confined_u16 : Confined u16 := (confined_take 2).map.map

theorem confined_u32 : Confined u32 := (confined_take 4).map.map

theorem confined_u64 : Confined u64 := (confined_take 8).map.map

theorem readMany_succ (items : List α) (count : Nat) :
    readMany decoder items (count + 1) =
      decoder >>= fun new => readMany decoder (new :: items) count := by
  funext reader
  simp only [readMany, Bind.bind, EStateM.bind]
  cases decoder reader <;> rfl

theorem confined_readMany (confined : Confined decoder) (items : List α) (count : Nat) :
    Confined (readMany decoder items count) := by
  induction count generalizing items with
  | zero => exact .pure items.reverse
  | succ count ih =>
    rw [readMany_succ]
    exact confined.bind fun new => ih (new :: items)

variable {table : StringTable}

theorem confined_readEntry (position : Nat) : Confined (StringTable.readEntry position) := by
  refine confined_u16.bind fun length => (confined_take _).bind fun bytes => ?_
  split
  · exact .pure _
  · exact .throw _

theorem readEntries_succ (table : StringTable) (count : Nat) :
    table.readEntries (count + 1) =
      StringTable.readEntry table.strings.size >>= fun text =>
        StringTable.readEntries ⟨table.strings.push text⟩ count := by
  funext reader
  simp only [StringTable.readEntries, Bind.bind, EStateM.bind]
  cases StringTable.readEntry table.strings.size reader <;> rfl

theorem confined_readEntries (table : StringTable) (count : Nat) :
    Confined (table.readEntries count) := by
  induction count generalizing table with
  | zero => exact .pure table
  | succ count ih =>
    rw [readEntries_succ]
    exact (confined_readEntry _).bind fun text => ih _

theorem confined_readTable : Confined StringTable.read :=
  confined_u32.bind fun _ => confined_readEntries _ _

theorem confined_readString : Confined table.readString := by
  refine confined_u16.bind fun id => ?_
  split
  · exact .pure _
  · exact .throw _

theorem confined_readCategory : Confined readCategory := by
  refine confined_u8.bind fun index => ?_
  split
  · exact .pure _
  · exact .throw _

theorem confined_valueTypeAt (index : UInt8) : Confined (valueTypeAt index) := by
  rw [valueTypeAt]
  split
  · exact .pure _
  · exact .throw _

theorem confined_readFlag : Confined (readFlag table) := by
  refine confined_u8.bind fun packed => confined_readString.bind fun label => ?_
  split
  · exact .pure _
  · exact .throw _

theorem confined_readChoice : Confined (readChoice table) :=
  confined_readString.bind fun _ => confined_readString.bind fun _ => .pure _

theorem confined_readKeyValue : Confined (readKeyValue table) := by
  refine confined_readString.bind fun name => confined_readString.bind fun displayName => ?_
  refine confined_u8.bind fun packed => (confined_valueTypeAt _).bind fun type => ?_
  split
  · exact confined_u8.bind fun count =>
      (confined_readMany confined_readFlag _ _).bind fun flags => .pure _
  · exact confined_readString.bind fun initial => confined_u16.bind fun count =>
      (confined_readMany confined_readChoice _ _).bind fun choices => .pure _
  · exact confined_readString.bind fun initial => .pure _

theorem confined_readSignal : Confined (readSignal table) :=
  confined_readString.bind fun _ => confined_u8.bind fun _ =>
    (confined_valueTypeAt _).bind fun _ => .ite (.throw _) (.pure _)

theorem confined_readClass : Confined (readClass table) := by
  refine confined_readCategory.bind fun category => confined_u8.bind fun baseCount => ?_
  refine confined_u8.bind fun keyValueCount => confined_u8.bind fun inputCount => ?_
  refine confined_u8.bind fun outputCount => confined_readString.bind fun name => ?_
  refine (confined_readMany confined_readString _ _).bind fun bases => ?_
  refine (confined_readMany confined_readKeyValue _ _).bind fun keyValues => ?_
  refine (confined_readMany confined_readSignal _ _).bind fun inputs => ?_
  exact (confined_readMany confined_readSignal _ _).bind fun outputs => .pure _

/-- Reads what follows the letters that an encoding begins with. -/
def readContents : Decoder Database := do
  readVersion
  let mapMin ← u64
  let mapMax ← u64
  let count ← u32
  let table ← StringTable.read
  let classes ← readMany (readClass table) [] count.toNat
  let db : Database :=
    ⟨∅, Binary64.toInt64 mapMin.toNat, Binary64.toInt64 mapMax.toNat, []⟩
  return classes.foldl Database.define db

theorem readDatabase_eq : readDatabase = readMagic >>= fun _ => readContents := rfl

theorem confined_readVersion : Confined readVersion :=
  confined_u8.bind fun _ => .ite (.throw _) (.pure _)

theorem confined_readContents : Confined readContents :=
  confined_readVersion.bind fun _ => confined_u64.bind fun _ => confined_u64.bind fun _ =>
    confined_u32.bind fun _ => confined_readTable.bind fun _ =>
      (confined_readMany confined_readClass _ _).bind fun _ => .pure _

end EntitySchema.Compact
