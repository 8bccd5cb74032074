import EntitySchema.Proofs.Compact.Recalling

/-! What can be said of everything that is read from bytes: value lists fit their types,
nothing is there that the format leaves out, and a layout of what was read stays within
the limits and uses only strings of the table. -/
namespace EntitySchema.Compact

/-- The strings that a number of 16 bits can refer to. -/
def StringTable.stock (table : StringTable) : List String := table.strings.toList.take maxStrings

/-- Every string is short enough to be written again. -/
def StringTable.Short (table : StringTable) : Prop :=
  ∀ text ∈ table.strings, (utf8 text).length ≤ maxStringBytes

/-- The layout meets no problem and uses strings of the stock only. -/
def Laid (stock : List String) (layout : Layout) : Prop :=
  layout.problem = none ∧ ∀ text ∈ textsOf layout.fields, text ∈ stock

namespace Laid

variable {stock : List String} {front back : Layout} {layouts : List Layout}

theorem append (first : Laid stock front) (second : Laid stock back) :
    Laid stock (front ++ back) := by
  refine ⟨Layout.problem_append.mpr ⟨first.1, second.1⟩, fun text used => ?_⟩
  rw [Layout.fields_append first.1, textsOf_append] at used
  rcases List.mem_append.mp used with inFront | inBack
  · exact first.2 text inFront
  · exact second.2 text inBack

theorem concat (each : ∀ layout ∈ layouts, Laid stock layout) : Laid stock (.concat layouts) := by
  induction layouts with
  | nil => exact ⟨rfl, fun text used => by cases used⟩
  | cons first rest ih =>
    rw [Layout.concat_cons]
    exact (each first List.mem_cons_self).append
      (ih fun layout member => each layout (List.mem_cons_of_mem _ member))

theorem ofFields {fields : List Field} (known : ∀ text ∈ textsOf fields, text ∈ stock) :
    Laid stock (.ofFields fields) := ⟨rfl, known⟩

theorem text {text : String} (known : text ∈ stock) : Laid stock (.text text) :=
  ofFields fun other used => by rwa [List.mem_singleton.mp used]

theorem byte (n : Nat) : Laid stock (.byte n) := ofFields fun text used => by cases used

theorem count8 {count : Nat} (few : count ≤ 255) (what : Counted) (classname : String) :
    Laid stock (.count8 what count classname) := by
  rw [Layout.count8, if_pos few]
  exact byte count

theorem count16 {count : Nat} (few : count ≤ 65535) (what : Counted) (classname : String) :
    Laid stock (.count16 what count classname) := by
  rw [Layout.count16, if_pos few]
  exact ofFields fun text used => by cases used

end Laid

variable {table : StringTable}

theorem StringTable.mem_of_mem_stock {text : String} (known : text ∈ table.stock) :
    text ∈ table.strings :=
  Array.mem_toList_iff.mp (List.mem_of_mem_take known)

theorem StringTable.length_stock_le : table.stock.length ≤ maxStrings :=
  List.length_take_le _ _

theorem yields_readString : Yields table.readString (· ∈ table.stock) := by
  refine Yields.bind .trivial fun id _ => ?_
  simp only [StringTable.lookup]
  cases found : table.strings[id.toNat]? with
  | none => exact .throw _
  | some text =>
    have below : id.toNat < maxStrings := id.toNat_lt
    rw [← Array.getElem?_toList, ← List.getElem?_take_of_lt below] at found
    exact .pure (List.mem_of_getElem? found)

theorem yields_readEntry (position : Nat) :
    Yields (StringTable.readEntry position) fun text => (utf8 text).length ≤ maxStringBytes := by
  refine Yields.bind .trivial fun length _ => Yields.bind length_of_take fun bytes size => ?_
  cases read : textOfUtf8? bytes with
  | none => exact .throw _
  | some text =>
    refine .pure ?_
    rw [utf8_eq_of_textOfUtf8? read, size]
    exact Nat.le_of_lt_succ length.toNat_lt

theorem yields_readEntries (short : table.Short) (count : Nat) :
    Yields (StringTable.readEntries table count) StringTable.Short := by
  induction count generalizing table with
  | zero =>
    intro before after final ran
    cases ran
    exact short
  | succ count ih =>
    intro before after final ran
    simp only [StringTable.readEntries] at ran
    split at ran
    · rename_i text middle started
      refine ih (fun other member => ?_) middle after final ran
      rcases Array.mem_push.mp member with old | rfl
      · exact short other old
      · exact yields_readEntry _ before other middle started
    · cases ran

theorem yields_readTable : Yields StringTable.read StringTable.Short :=
  Yields.bind .trivial fun _ _ => yields_readEntries (fun _ member => by simp at member) _

theorem yields_readFlag : Yields (readFlag table) fun entry =>
    entry.bit.power ≤ 127 ∧ entry.label ∈ table.stock := by
  refine Yields.bind .trivial fun packed _ => yields_readString.bind fun label known => ?_
  rw [FlagBit.ofPower?]
  split
  · rename_i bit found
    split at found
    · rename_i small
      cases found
      exact .pure ⟨small, known⟩
    · cases found
  · exact .throw _

theorem yields_readChoice : Yields (readChoice table) fun choice =>
    choice.value ∈ table.stock ∧ choice.label ∈ table.stock :=
  yields_readString.bind fun _ value => yields_readString.bind fun _ label => .pure ⟨value, label⟩

/-- What can be said of a keyvalue that has been read. -/
structure KeyValueRead (stock : List String) (keyValue : KeyValue) : Prop where
  wellFormed : keyValue.WellFormed
  compacted : keyValue.compacted = keyValue
  laid : ∀ classname, Laid stock (keyValueLayout classname keyValue)

theorem yields_readKeyValue : Yields (readKeyValue table) (KeyValueRead table.stock) := by
  refine yields_readString.bind fun name nameKnown => ?_
  refine yields_readString.bind fun displayName displayNameKnown => ?_
  refine Yields.bind .trivial fun packed _ => Yields.bind .trivial fun type _ => ?_
  have head : ∀ index readonly, Laid table.stock
      (.ofFields [.text name, .text displayName, .byte (marked index readonly).toUInt8]) := by
    intro index readonly
    refine Laid.ofFields fun text used => ?_
    simp only [textsOf, List.filterMap_cons, List.filterMap_nil, List.mem_cons, List.not_mem_nil,
      or_false] at used
    rcases used with rfl | rfl
    · exact nameKnown
    · exact displayNameKnown
  split
  · refine Yields.bind .trivial fun count _ => ?_
    refine (yields_readMany yields_readFlag _).bind fun flags read => .pure ?_
    obtain ⟨length, each⟩ := read
    have few : flags.length ≤ 255 := length.trans_le (Nat.le_of_lt_succ count.toNat_lt)
    refine ⟨⟨rfl, fun entry member => (each entry member).1⟩, rfl, fun classname => ?_⟩
    refine ((head _ _).append (.count8 few _ _)).append (.concat fun layout member => ?_)
    obtain ⟨entry, inside, rfl⟩ := List.mem_map.mp member
    exact .ofFields fun text used => by
      rw [List.mem_singleton.mp used]
      exact (each entry inside).2
  · refine yields_readString.bind fun initial initialKnown => ?_
    refine Yields.bind .trivial fun count _ => ?_
    refine (yields_readMany yields_readChoice _).bind fun choices read => .pure ?_
    obtain ⟨length, each⟩ := read
    have few : choices.length ≤ 65535 := length.trans_le (Nat.le_of_lt_succ count.toNat_lt)
    refine ⟨⟨rfl, fun entry member => by cases member⟩, rfl, fun classname => ?_⟩
    refine (((head _ _).append (.text initialKnown)).append (.count16 few _ _)).append
      (.concat fun layout member => ?_)
    obtain ⟨choice, inside, rfl⟩ := List.mem_map.mp member
    refine (Laid.text (each choice inside).1).append (.text (each choice inside).2)
  · rename_i notFlags notChoices
    refine yields_readString.bind fun initial initialKnown => .pure ?_
    have plain : type.hasList = false := by
      rcases type.hasList_cases with flags | choices | plain
      · exact absurd flags notFlags
      · exact absurd choices notChoices
      · exact plain
    refine ⟨⟨plain, fun entry member => by cases member⟩, ?_, fun classname => ?_⟩
    · have unlisted : type ≠ .flags := notFlags
      simp [KeyValue.compacted, unlisted]
    · rw [keyValueLayout_of_plain classname plain]
      exact (head _ _).append (.text initialKnown)

/-- What can be said of a signal that has been read. -/
structure SignalRead (stock : List String) (signal : Signal) : Prop where
  compacted : signal.compacted = signal
  laid : Laid stock (signalLayout signal)

theorem yields_readSignal : Yields (readSignal table) (SignalRead table.stock) := by
  refine yields_readString.bind fun name known => Yields.bind .trivial fun index _ => ?_
  refine Yields.bind .trivial fun type _ => Yields.ite (fun _ => .throw _) fun unlisted => ?_
  refine .pure ⟨rfl, ?_⟩
  rw [signalLayout, if_neg unlisted]
  exact (Laid.text known).append (.byte _)

/-- What can be said of a class that has been read, its bases waiting to be linked. -/
structure ClassRead (stock : List String) (entity : EntityClass) : Prop where
  wellKept : entity.WellKept
  compacted : entity.compacted = entity
  named : ∀ base ∈ entity.bases, ∃ name, base = EntityClass.baseNamed name
  distinct : entity.bases.Nodup
  fewBases : entity.bases.length ≤ 255
  fewKeyValues : entity.keyValues.size ≤ 255
  fewInputs : entity.inputs.size ≤ 255
  fewOutputs : entity.outputs.size ≤ 255
  name : entity.name ∈ stock
  keyValues : ∀ keyValue ∈ entity.keyValues.values, KeyValueRead stock keyValue
  inputs : ∀ signal ∈ entity.inputs.values, SignalRead stock signal
  outputs : ∀ signal ∈ entity.outputs.values, SignalRead stock signal

theorem classRead_of_parts {stock : List String} {category : Category} {name : String}
    {names : List String} {keyValues : List KeyValue} {inputs outputs : List Signal}
    (known : name ∈ stock) (fewNames : names.length ≤ 255)
    (fewKeyValues : keyValues.length ≤ 255) (fewInputs : inputs.length ≤ 255)
    (fewOutputs : outputs.length ≤ 255)
    (keyValuesRead : ∀ keyValue ∈ keyValues, KeyValueRead stock keyValue)
    (inputsRead : ∀ signal ∈ inputs, SignalRead stock signal)
    (outputsRead : ∀ signal ∈ outputs, SignalRead stock signal) :
    ClassRead stock (outputs.foldl (EntityClass.addSignal · .output)
      (inputs.foldl (EntityClass.addSignal · .input)
        (keyValues.foldl EntityClass.addKeyValue
          (names.foldl EntityClass.addBase (.plain category name))))) := by
  obtain ⟨bases, made, distinct, few, origin⟩ :=
    EntityClass.exists_foldl_addBase names (.plain category name) List.nodup_nil
  rw [made, EntityClass.foldl_addKeyValue, EntityClass.foldl_addSignal_input,
    EntityClass.foldl_addSignal_output]
  obtain ⟨keyedKeyValues, sizeKeyValues, memberKeyValues⟩ :=
    (OrderedMap.KeyedBy.empty : OrderedMap.KeyedBy KeyValue.name ∅).foldl_insert keyValues
  obtain ⟨keyedInputs, sizeInputs, memberInputs⟩ :=
    (OrderedMap.KeyedBy.empty : OrderedMap.KeyedBy Signal.name ∅).foldl_insert inputs
  obtain ⟨keyedOutputs, sizeOutputs, memberOutputs⟩ :=
    (OrderedMap.KeyedBy.empty : OrderedMap.KeyedBy Signal.name ∅).foldl_insert outputs
  have nothing {α : Type} {value : α} : value ∉ (∅ : OrderedMap α).values := List.not_mem_nil
  have empty {α : Type} : (∅ : OrderedMap α).size = 0 := rfl
  have eachKeyValue := fun keyValue member =>
    keyValuesRead keyValue ((memberKeyValues keyValue member).resolve_left nothing)
  have eachInput := fun signal member =>
    inputsRead signal ((memberInputs signal member).resolve_left nothing)
  have eachOutput := fun signal member =>
    outputsRead signal ((memberOutputs signal member).resolve_left nothing)
  rw [empty, Nat.zero_add] at sizeKeyValues sizeInputs sizeOutputs
  exact {
    wellKept := ⟨keyedKeyValues, keyedInputs, keyedOutputs,
      fun keyValue member => (eachKeyValue keyValue member).wellFormed⟩
    compacted := by
      simp only [EntityClass.compacted, EntityClass.plain]
      rw [OrderedMap.mapValues_eq_self fun keyValue member =>
          (eachKeyValue keyValue member).compacted,
        OrderedMap.mapValues_eq_self fun signal member => (eachInput signal member).compacted,
        OrderedMap.mapValues_eq_self fun signal member => (eachOutput signal member).compacted]
    named := fun base member =>
      let ⟨name, _, same⟩ := (origin base member).resolve_left List.not_mem_nil
      ⟨name, same⟩
    distinct
    fewBases := by
      rw [EntityClass.plain, List.length_nil, Nat.zero_add] at few
      exact Nat.le_trans few fewNames
    fewKeyValues := Nat.le_trans sizeKeyValues fewKeyValues
    fewInputs := Nat.le_trans sizeInputs fewInputs
    fewOutputs := Nat.le_trans sizeOutputs fewOutputs
    name := known
    keyValues := eachKeyValue
    inputs := eachInput
    outputs := eachOutput }

theorem yields_readClass : Yields (readClass table) (ClassRead table.stock) := by
  refine Yields.bind .trivial fun category _ => ?_
  refine Yields.bind .trivial fun baseCount _ => Yields.bind .trivial fun keyValueCount _ => ?_
  refine Yields.bind .trivial fun inputCount _ => Yields.bind .trivial fun outputCount _ => ?_
  refine yields_readString.bind fun name known => ?_
  refine (yields_readMany yields_readString _).bind fun names ⟨nameCount, _⟩ => ?_
  refine (yields_readMany yields_readKeyValue _).bind
    fun keyValues ⟨keyValueCounted, eachKeyValue⟩ => ?_
  refine (yields_readMany yields_readSignal _).bind fun inputs ⟨inputCounted, eachInput⟩ => ?_
  refine (yields_readMany yields_readSignal _).bind
    fun outputs ⟨outputCounted, eachOutput⟩ => .pure ?_
  have few {count : UInt8} {length : Nat} (same : length = count.toNat) : length ≤ 255 :=
    same.trans_le (Nat.le_of_lt_succ count.toNat_lt)
  exact classRead_of_parts known (few nameCount) (few keyValueCounted) (few inputCounted)
    (few outputCounted) eachKeyValue eachInput eachOutput

/-- What can be said of a database that has been read, its bases waiting to be linked. -/
structure DatabaseRead (stock : List String) (db : Database) : Prop where
  limited : stock.length ≤ maxStrings
  short : ∀ text ∈ stock, (utf8 text).length ≤ maxStringBytes
  keyed : db.classes.KeyedBy EntityClass.name
  few : db.size < UInt32.size
  classes : ∀ entity ∈ db.classes.values, ClassRead stock entity
  mapMin : ∃ bits, db.mapMin = Binary64.toInt64 bits
  mapMax : ∃ bits, db.mapMax = Binary64.toInt64 bits
  files : db.files = []

theorem yields_readDatabase : Yields readDatabase fun db => ∃ stock, DatabaseRead stock db := by
  refine Yields.bind .trivial fun _ _ => Yields.bind .trivial fun _ _ => ?_
  refine Yields.bind .trivial fun mapMin _ => Yields.bind .trivial fun mapMax _ => ?_
  refine Yields.bind .trivial fun count _ => yields_readTable.bind fun table short => ?_
  refine (yields_readMany yields_readClass _).bind fun classes ⟨length, each⟩ => .pure ?_
  obtain ⟨keyed, size, member⟩ :=
    (OrderedMap.KeyedBy.empty : OrderedMap.KeyedBy EntityClass.name ∅).foldl_insert classes
  refine ⟨table.stock, ?_⟩
  rw [Database.foldl_define]
  exact {
    limited := StringTable.length_stock_le
    short := fun text known => short text (StringTable.mem_of_mem_stock known)
    keyed
    few := by
      have below : count.toNat < UInt32.size := count.toNat_lt
      rw [← length] at below
      refine Nat.lt_of_le_of_lt size ?_
      rwa [show (∅ : OrderedMap EntityClass).size = 0 from rfl, Nat.zero_add]
    classes := fun entity inside =>
      each entity ((member entity inside).resolve_left List.not_mem_nil)
    mapMin := ⟨_, rfl⟩
    mapMax := ⟨_, rfl⟩
    files := rfl }

end EntitySchema.Compact
