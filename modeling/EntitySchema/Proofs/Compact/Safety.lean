import EntitySchema.Proofs.Compact.Confinement
import EntitySchema.Proofs.Compact.FixedPoint

/-! Whatever bytes are decoded, the result is a database that is as good as any, or a
problem with the format, or a base that no class answers to; and nothing but the bytes
in front of the place where reading stops has a say in it. -/
namespace EntitySchema

/-- What can be relied on in a database that has been decoded. -/
structure Database.Decoded (db : Database) : Prop where
  keyed : db.classes.KeyedBy EntityClass.name
  wellKept : ∀ entity ∈ db.classes.values, entity.WellKept
  signals : ∀ entity ∈ db.classes.values,
    ∀ signal ∈ entity.inputs.values ++ entity.outputs.values, signal.type.hasList = false
  linked : ∀ entity ∈ db.classes.values, ∀ base ∈ entity.bases,
    ∃ id, base = .linked id ∧ id.toNat < db.size
  distinct : ∀ entity ∈ db.classes.values, entity.bases.Nodup
  undescribed : ∀ entity ∈ db.classes.values, entity.description = "" ∧
    (∀ keyValue ∈ entity.keyValues.values, keyValue.description = "") ∧
    ∀ signal ∈ entity.inputs.values ++ entity.outputs.values, signal.description = ""
  helpers : ∀ entity ∈ db.classes.values, entity.helpers = []
  files : db.files = []

namespace Compact

variable {stock : List String} {start db : Database} {front rest : List UInt8}

theorem SignalRead.hasList {signal : Signal} (read : SignalRead stock signal) :
    signal.type.hasList = false := by
  have clear := read.laid.1
  rw [signalLayout] at clear
  split at clear
  · cases clear
  · exact Bool.eq_false_of_not_eq_true ‹_›

theorem ClassRead.signals {entity : EntityClass} (read : ClassRead stock entity) :
    ∀ signal ∈ entity.inputs.values ++ entity.outputs.values, SignalRead stock signal :=
  List.forall_mem_append.mpr ⟨read.inputs, read.outputs⟩

theorem DatabaseRead.decoded_linked (read : DatabaseRead stock start)
    (linked : start.linkBases = (db, none)) : db.Decoded := by
  have storable := read.storable_linked linked
  have original : ∀ entity ∈ db.classes.values, ∃ original bases,
      ClassRead stock original ∧ entity = { original with bases } := by
    intro entity member
    obtain ⟨key, entry⟩ := OrderedMap.mem_values.mp member
    obtain ⟨original, bases, classRead, -, -, same⟩ := read.exists_original linked entry
    exact ⟨original, bases, classRead, same⟩
  refine {
    keyed := storable.keyed
    wellKept := storable.wellKept
    signals := fun entity member => ?_
    linked := fun entity member base inside => ?_
    distinct := fun entity member => ?_
    undescribed := fun entity member => ?_
    helpers := fun entity member => ?_
    files := ?_ }
  · obtain ⟨original, bases, classRead, rfl⟩ := original entity member
    exact fun signal inside => (classRead.signals signal inside).hasList
  · obtain ⟨id, target, rfl, found, -⟩ := storable.linked entity member base inside
    exact ⟨id, rfl, Database.lt_size_of_classAt? found⟩
  · rw [storable.bases_eq member]
    exact (storable.distinct entity member).map fun _ _ same => Base.linked.inj same
  · obtain ⟨original, bases, classRead, rfl⟩ := original entity member
    refine ⟨?_, fun keyValue inside => ?_, fun signal inside => ?_⟩
    · exact (congrArg EntityClass.description classRead.compacted).symm
    · exact (congrArg KeyValue.description (classRead.keyValues keyValue inside).compacted).symm
    · exact (congrArg Signal.description (classRead.signals signal inside).compacted).symm
  · obtain ⟨original, bases, classRead, rfl⟩ := original entity member
    exact (congrArg EntityClass.helpers classRead.compacted).symm
  · rw [(rest_of_linked linked).2.2, read.files]

/-- Fewer bytes than an encoding begins with are left unread. -/
theorem readMagic_of_short {bytes : List UInt8} (short : bytes.length < magic.length)
    (offset : Nat) : readMagic ⟨bytes, offset⟩ = .error .badMagic ⟨bytes, offset⟩ := by
  simp only [readMagic, Reader.take, splitBytes, splitBytesFrom_of_short short]

theorem readMagic_cases {bytes : List UInt8} (enough : magic.length ≤ bytes.length) :
    ∃ front rest, bytes = front ++ rest ∧ front.length = magic.length ∧
      (front = magic ∧ Reads readMagic front () ∨ Refuses readMagic front .badMagic) := by
  have size := List.length_take_of_le enough
  refine ⟨bytes.take magic.length, bytes.drop magic.length, (List.take_append_drop ..).symm, size,
    ?_⟩
  have read := reads_take (bytes.take magic.length)
  rw [size] at read
  by_cases same : bytes.take magic.length = magic
  · rw [same]
    exact Or.inl ⟨rfl, reads_magic⟩
  · refine Or.inr fun rest offset => ?_
    simp only [readMagic, read rest offset, if_neg same, size]

/-- What reading the bytes comes to, and which of them settle that. -/
theorem readDatabase_cases (bytes : List UInt8) :
    bytes.length < magic.length ∨
      ∃ front rest, bytes = front ++ rest ∧ Settled readDatabase front rest := by
  rw [readDatabase_eq]
  rcases Nat.lt_or_ge bytes.length magic.length with short | enough
  · exact Or.inl short
  · refine Or.inr ?_
    obtain ⟨front, rest, rfl, -, ⟨-, read⟩ | refused⟩ := readMagic_cases enough
    · obtain ⟨back, rest, rfl, settled⟩ := confined_readContents rest
      exact ⟨front ++ back, rest, (List.append_assoc ..).symm, settled.bind read⟩
    · exact ⟨front, rest, rfl, .refuses .badMagic refused.first⟩

theorem decode_of_failed {bytes : List UInt8} {problem : FormatProblem} {after : Reader}
    (failed : readDatabase (.ofBytes bytes) = .error problem after) :
    decode bytes = .error (.ofCause (.format problem)) := by
  rw [decode, failed]

theorem decode_of_short {bytes : List UInt8} (short : bytes.length < magic.length) :
    readDatabase (.ofBytes bytes) = .error .badMagic (.ofBytes bytes) ∧
      decode bytes = .error (.ofCause (.format .badMagic)) := by
  have failed : readDatabase (.ofBytes bytes) = .error .badMagic (.ofBytes bytes) :=
    bind_of_failed (readMagic_of_short short 0)
  exact ⟨failed, decode_of_failed failed⟩

theorem decode_of_reads (read : Reads readDatabase front db) (more : List UInt8) :
    decode (front ++ more) =
      match db.linkBases with
      | (db, none) => .ok db
      | (_, some problem) => .error (.ofCause (.semantic problem)) := by
  have ran : readDatabase (.ofBytes (front ++ more)) = .ok db _ := read more 0
  rcases linking : db.linkBases with ⟨after, _ | problem⟩ <;> simp only [decode, ran, linking]

theorem decode_of_refuses {problem : FormatProblem} (refused : Refuses readDatabase front problem)
    (more : List UInt8) : decode (front ++ more) = .error (.ofCause (.format problem)) :=
  decode_of_failed (refused more 0)

/-- Decoding yields a database, a problem with the format, or a base that is unknown. -/
theorem decode_cases (bytes : List UInt8) :
    (∃ db, decode bytes = .ok db ∧ db.Decoded) ∨
      (∃ problem, decode bytes = .error (.ofCause (.format problem))) ∨
      ∃ name classname,
        decode bytes = .error (.ofCause (.semantic (.unknownBase name classname))) := by
  cases ran : readDatabase (.ofBytes bytes) with
  | error problem after => exact Or.inr (Or.inl ⟨problem, decode_of_failed ran⟩)
  | ok start after =>
    obtain ⟨stock, read⟩ := yields_readDatabase _ _ _ ran
    cases linking : start.linkBases with
    | mk db problem =>
      cases problem with
      | none =>
        have decoded : decode bytes = .ok db := by
          simp only [decode, ran, linking]
        exact Or.inl ⟨db, decoded, read.decoded_linked linking⟩
      | some problem =>
        have failed : (start.linkFrom 0).2 = some problem := by
          rw [← Database.linkBases, linking]
        obtain ⟨name, classname, rfl⟩ := Database.unknownBase_of_linkFrom failed
        refine Or.inr (Or.inr ⟨name, classname, ?_⟩)
        simp only [decode, ran, linking]

/-- Where a run of a decoder leaves off. -/
def stopping {α : Type} : EStateM.Result FormatProblem Reader α → Reader
  | .ok _ after => after
  | .error _ after => after

/-- Decoding is safe for all bytes. It stops within them; and unless it asks for more than
are left there, the bytes up to that place have settled the result. -/
theorem decode_safe (bytes : List UInt8) :
    ((∃ db, decode bytes = .ok db ∧ db.Decoded) ∨
      (∃ problem, decode bytes = .error (.ofCause (.format problem))) ∨
      ∃ name classname,
        decode bytes = .error (.ofCause (.semantic (.unknownBase name classname)))) ∧
    ∃ front rest, bytes = front ++ rest ∧
      stopping (readDatabase (.ofBytes bytes)) = ⟨rest, front.length⟩ ∧
      ((∀ more, decode (front ++ more) = decode bytes) ∨
        bytes.length < magic.length ∧ decode bytes = .error (.ofCause (.format .badMagic)) ∨
        ∃ needed, rest.length < needed ∧
          decode bytes = .error (.ofCause (.format (.truncated front.length needed)))) := by
  refine ⟨decode_cases bytes, ?_⟩
  rcases readDatabase_cases bytes with short | ⟨front, rest, rfl, settled⟩
  · obtain ⟨failed, decoded⟩ := decode_of_short short
    refine ⟨[], bytes, rfl, ?_, Or.inr (Or.inl ⟨short, decoded⟩)⟩
    rw [failed]
    rfl
  · cases settled with
    | reads db read =>
      refine ⟨front, rest, rfl, ?_, Or.inl fun more => ?_⟩
      · rw [Reader.ofBytes, read rest 0, Nat.zero_add]
        rfl
      · rw [decode_of_reads read, decode_of_reads read]
    | refuses problem refused =>
      refine ⟨front, rest, rfl, ?_, Or.inl fun more => ?_⟩
      · rw [Reader.ofBytes, refused rest 0, Nat.zero_add]
        rfl
      · rw [decode_of_refuses refused, decode_of_refuses refused]
    | exhausts short =>
      obtain ⟨needed, less, failed⟩ := short
      have ran := failed 0
      rw [Nat.zero_add] at ran
      refine ⟨front, rest, rfl, ?_, Or.inr (Or.inr ⟨needed, less, decode_of_failed ran⟩)⟩
      rw [Reader.ofBytes, ran]
      rfl

end Compact
end EntitySchema
