import EntitySchema.Proofs.Snapshot.Restoring

/-! A snapshot brings back its database with all that is in it, whatever that is, and only as
a whole: without the last of its bytes it is none. -/
namespace EntitySchema.Snapshot

open MessagePack

variable {db : Database}

theorem reads_write (counted : (databaseValue db).Counted) (distinct : db.files.Nodup) :
    ∃ value, Reads (readValue maxDepth) (write db) value ∧ database? value = some db :=
  (restores_database counted distinct : Restores (1015 + 8) _ _ _)

/-- A snapshot is read as its database, whatever follows it. -/
theorem read_write (counted : (databaseValue db).Counted) (distinct : db.files.Nodup)
    (more : List UInt8) : read (write db ++ more) = .ok db := by
  obtain ⟨value, stored, result⟩ := reads_write counted distinct
  simp only [read, stored more, result]

/-- Every database whose lengths can be written is brought back exactly, and no proper
beginning of its snapshot is read as any database. -/
theorem lossless (counted : (databaseValue db).Counted) (distinct : db.files.Nodup) :
    (∀ more, read (write db ++ more) = .ok db) ∧
      ∀ n < (write db).length,
        read ((write db).take n) = .error (.ofCause (.snapshot "malformed bytes")) := by
  constructor
  · exact read_write counted distinct
  · intro n less
    obtain ⟨value, stored, -⟩ := reads_write counted distinct
    simp only [read, stored.eq_none_of_take (steady_readValue maxDepth) less]

namespace Workshop

def style (power : UInt8) : KeyValue :=
  ⟨"Style", .flags, "Style", "7", "How it glows.", true,
    some (.flags [⟨⟨power⟩, "On", true⟩, ⟨⟨0⟩, "Long life", false⟩])⟩

def skin : KeyValue :=
  ⟨"skin", .choices, "Skin", "1", "", false, some (.choices [⟨"1", "Brass"⟩, ⟨"", "Bare"⟩])⟩

def lamp (power : UInt8) : EntityClass where
  category := .npc
  name := "Lamp"
  bases := [.linked 0, .named "ghost"]
  keyValues := .ofDistinct [("style", style power), ("skin", skin)] (by simp)
  inputs := .ofDistinct [("toggle", ⟨"Toggle", .void, "Turns it over."⟩)] (by simp)
  outputs := ∅
  helpers := [⟨.halfGridSnap, []⟩, ⟨.size, ["-8 -8 -8", "8 8 8"]⟩]
  description := "Gives light."

/-- A database with something in all of its parts, and a flag of any power. -/
def database (power : UInt8) : Database :=
  ⟨.ofDistinct [("lamp", lamp power)] (by simp), .minValue, 128, ["lamp.fgd", "b/base.fgd"]⟩

theorem counted (power : UInt8) : (databaseValue (database power)).Counted := by
  have number (n : Nat) : (Value.unsigned n).Counted := .unsigned n
  have bound (n : Int) : (Value.signed n).Counted := .signed n
  have mark (flag : Bool) : (Value.bool flag).Counted := .bool flag
  simp +decide only [databaseValue, databaseFields, database, classValue, classFields, lamp,
    baseValue, taggedValue_eq, keyValueValue, keyValueFields, style, skin, valuesValue, flagValue,
    flagFields, choiceValue, choiceFields, signalValue, signalFields, helperValue, helperFields,
    counted_recordValue, counted_mapValue, counted_listValue, counted_textValue,
    OrderedMap.toList_ofDistinct, List.zip_cons_cons, List.zip_nil_right, List.forall_mem_cons,
    List.not_mem_nil, List.length_cons, List.length_nil, false_imp_iff, implies_true, number,
    bound, mark, and_true]

end Workshop

theorem lossless_workshop :
    (∀ more, read (write (Workshop.database 127) ++ more) = .ok (Workshop.database 127)) ∧
      ∀ n < (write (Workshop.database 127)).length,
        read ((write (Workshop.database 127)).take n) =
          .error (.ofCause (.snapshot "malformed bytes")) :=
  lossless (Workshop.counted 127) (by decide)

end EntitySchema.Snapshot
