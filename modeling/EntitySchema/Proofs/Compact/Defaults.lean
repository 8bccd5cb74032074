import EntitySchema.Proofs.Compact.FixedPoint
import EntitySchema.Proofs.Loading.Calls

/-! What becomes of default texts in the compact format. A source text may give a default for
a keyvalue of any type. All are stored but those of flag words, whose layout has a mark
for each flag instead. -/
namespace EntitySchema

variable {db : Database}

/-- A sound database whose bases are all linked can be brought back, unless it has more classes
than there are numbers. -/
theorem Database.Sound.storable (sound : db.Sound) (few : db.size ≤ UInt32.size)
    (linked : ∀ entity ∈ db.classes.values, ∀ base ∈ entity.bases, ∃ id, base = .linked id) :
    db.Storable where
  keyed := sound.keyed
  wellKept entity member := (sound.classes entity member).kept
  linked := by
    intro entity member base inside
    obtain ⟨id, rfl⟩ := linked entity member base inside
    have below := (sound.apart entity member).lt_size (EntityClass.mem_links.mpr inside)
    have entry := entryAt?_of_lt below
    have stored := OrderedMap.mem_values.mpr ⟨_, OrderedMap.mem_toList_of_entryAt? entry⟩
    exact ⟨id, _, rfl, congrArg (Option.map Prod.snd) entry, (sound.classes _ stored).name⟩
  distinct entity member := (sound.apart entity member).nodup few

namespace Compact

variable {bytes : List UInt8}

theorem find?_restored (db : Database) (name : String) :
    (restored db).find? name = (db.find? name).map EntityClass.compacted :=
  OrderedMap.get?_mapValues ..

theorem get?_compacted (entity : EntityClass) (key : String) :
    entity.compacted.keyValues.get? key = (entity.keyValues.get? key).map KeyValue.compacted :=
  OrderedMap.get?_mapValues ..

/-- Whatever a text is parsed to comes back, if it can be encoded at all. -/
theorem decode_of_parse {text : String} (parsed : Source.parse text = .ok db)
    (encoded : encode db = .ok bytes) : decode bytes = .ok (restored db) := by
  obtain ⟨sound, linked⟩ := Source.sound_of_parse parsed
  obtain ⟨_, _, _, _, few, _⟩ := encode_eq_ok_iff.mp encoded
  exact decode_encode (sound.storable (Nat.le_of_lt few) linked) encoded

namespace Lamp

/-- A lamp with a flag word and a list of choices, both with a default text. -/
def text : String := "@pointclass=Lamp[glow(flags):Glow:7=[1:On] hue(choices):Hue:2=[2:Red]]"

def token (kind : TokenKind) (text : String) (start stop : Nat) : Token :=
  ⟨kind, text, ⟨start, stop, 1, start + 1⟩⟩

def colon (start : Nat) : Token := token .colon ":" start (start + 1)

def head : List Token :=
  [token .equals "=" 11 12, token .string "Lamp" 12 16, token .bracketOpen "[" 16 17]

def glowLine : List Token :=
  [token .parenArgs "flags" 21 28, colon 28, token .string "Glow" 29 33, colon 33,
    token .string "7" 34 35, token .equals "=" 35 36, token .bracketOpen "[" 36 37,
    token .string "1" 37 38, colon 38, token .string "On" 39 41, token .bracketClose "]" 41 42]

def hueLine : List Token :=
  [token .parenArgs "choices" 46 55, colon 55, token .string "Hue" 56 59, colon 59,
    token .string "2" 60 61, token .equals "=" 61 62, token .bracketOpen "[" 62 63,
    token .string "2" 63 64, colon 64, token .string "Red" 65 68, token .bracketClose "]" 68 69]

def stop : TokenStream := .exhausted ⟨70, 70, 1, 71⟩

def afterHue : TokenStream := .token (token .bracketClose "]" 69 70) stop

def afterGlow : TokenStream := .token (token .string "hue" 43 46) (.ahead hueLine afterHue)

def afterHead : TokenStream := .token (token .string "glow" 17 21) (.ahead glowLine afterGlow)

theorem ofText_text :
    TokenStream.ofText text =
      .token (token .string "@pointclass" 0 11) (.ahead head afterHead) := by
  cbv

def glow : KeyValue := ⟨"glow", .flags, "Glow", "7", "", false, some (.flags [⟨⟨0⟩, "On", false⟩])⟩

def hue : KeyValue := ⟨"hue", .choices, "Hue", "2", "", false, some (.choices [⟨"2", "Red"⟩])⟩

def empty : EntityClass := { EntityClass.plain .point "" with name := trimmed "Lamp" }

def lamp : EntityClass := (empty.addKeyValue glow).addKeyValue hue

theorem readBody_text : Grammar.readBody empty afterHead = (lamp, .ok () stop) := by
  have string : ∀ text start stop, (token .string text start stop).kind = .string :=
    fun _ _ _ => rfl
  have glowRead : Grammar.readMember empty.name "glow" (.ahead glowLine afterGlow) =
      .ok (.keyValue glow, false) afterGlow := by
    cbv
  have hueRead : Grammar.readMember (empty.addKeyValue glow).name "hue" (.ahead hueLine afterHue) =
      .ok (.keyValue hue, false) afterHue := by
    cbv
  have hueThen := Grammar.readBody_token (string "hue" 43 46) hueRead
  rw [afterHead, Grammar.readBody_token (string "glow" 17 21) glowRead,
    if_neg Bool.false_ne_true, afterGlow]
  refine hueThen.trans ?_
  rw [if_neg Bool.false_ne_true, afterHue, Grammar.readBody]
  rfl

def database : Database := (∅ : Database).define lamp

theorem toList_classes : database.classes.toList = [("lamp", lamp)] := by
  have distinct : ([("lamp", lamp)].map Prod.fst).Nodup := by decide
  exact OrderedMap.toList_ofList distinct

theorem toList_keyValues : lamp.keyValues.toList = [("glow", glow), ("hue", hue)] := by
  have distinct : ([("glow", glow), ("hue", hue)].map Prod.fst).Nodup := by decide
  exact OrderedMap.toList_ofList distinct

theorem find?_lamp : database.find? "Lamp" = some lamp :=
  OrderedMap.get?_of_toList (i := 0) (by rw [toList_classes]; rfl)

theorem get?_glow : lamp.keyValues.get? "glow" = some glow :=
  OrderedMap.get?_of_toList (i := 0) (by rw [toList_keyValues]; rfl)

theorem get?_hue : lamp.keyValues.get? "hue" = some hue :=
  OrderedMap.get?_of_toList (i := 1) (by rw [toList_keyValues]; rfl)

theorem parse_text : Source.parse text = .ok database := by
  have head : Source.readDirective (token .string "@pointclass" 0 11) (.ahead head afterHead) =
      .ok (.classHead empty) afterHead := rfl
  have read : Source.loadText MemoryFiles.empty.source .standard "<string>" text ∅ =
      .ok () database := by
    rw [Source.loadText, ofText_text, Source.loadStream_of_block rfl head readBody_text, stop,
      Source.loadStream]
    rfl
  have linked : Source.linkLoaded database = .ok () database := by
    refine Source.linkLoaded_eq_ok_iff.mpr (Database.linkFrom_of_linked (fun entity member => ?_) 0)
    rw [OrderedMap.values, toList_classes, List.map_singleton, List.mem_singleton] at member
    rw [member]
    rfl
  rw [Source.parse, bind_of_ran read, linked]

/-- The strings of the lamp. -/
def stock : List String := ["Lamp", "glow", "Glow", "On", "hue", "Hue", "2", "Red"]

theorem layout_database : layout database = .ofFields [.byte 1, .byte 0, .byte 2, .byte 0, .byte 0,
    .text "Lamp", .text "glow", .text "Glow", .byte 2, .byte 1, .byte 0, .text "On", .text "hue",
    .text "Hue", .byte 1, .text "2", .word 1, .text "2", .text "Red"] := by
  have count : lamp.keyValues.size = 2 := by
    rw [← OrderedMap.length_toList, toList_keyValues]
    rfl
  have keyValues : lamp.keyValues.values = [glow, hue] := by
    rw [OrderedMap.values, toList_keyValues]
    rfl
  rw [layout, OrderedMap.values, toList_classes]
  simp only [List.map_cons, List.map_nil]
  rw [classLayout, count, keyValues]
  rfl

theorem encode_database : ∃ bytes, encode database = .ok bytes := by
  have laid : Laid stock (layout database) := by
    rw [layout_database]
    exact .ofFields (by decide)
  have few : database.size < UInt32.size := by
    rw [Database.size, ← OrderedMap.length_toList, toList_classes]
    decide
  exact encode_total (by decide) (by decide) few laid

end Lamp

/-- What a text is parsed to comes back with the same classes and keyvalues, and with the same
default texts but for those of flag words. What comes back of a flag word is its flags, with
the marks of those that are set initially. -/
theorem initial_of_parse {text : String} (parsed : Source.parse text = .ok db)
    (encoded : encode db = .ok bytes) :
    ∃ back, decode bytes = .ok back ∧ back.classes.keys = db.classes.keys ∧
      ∀ name entity, db.find? name = some entity → ∃ kept, back.find? name = some kept ∧
        kept.keyValues.keys = entity.keyValues.keys ∧
        ∀ key keyValue, entity.keyValues.get? key = some keyValue →
          ∃ keptValue, kept.keyValues.get? key = some keptValue ∧
            keptValue.type = keyValue.type ∧ keptValue.values = keyValue.values ∧
            keptValue.initial = if keyValue.type = .flags then "" else keyValue.initial := by
  refine ⟨restored db, decode_of_parse parsed encoded, OrderedMap.keys_mapValues _ _, ?_⟩
  intro name entity found
  refine ⟨entity.compacted, by rw [find?_restored, found, Option.map_some],
    OrderedMap.keys_mapValues _ _, fun key keyValue member => ?_⟩
  exact ⟨keyValue.compacted, by rw [get?_compacted, member, Option.map_some], rfl, rfl, rfl⟩

theorem initial_of_parse_lamp : Source.parse Lamp.text = .ok Lamp.database ∧
    ∃ bytes, encode Lamp.database = .ok bytes ∧ ∃ back, decode bytes = .ok back ∧
      ∃ lamp, back.find? "Lamp" = some lamp ∧
        (∃ glow, lamp.keyValues.get? "glow" = some glow ∧ glow.initial = "") ∧
        ∃ hue, lamp.keyValues.get? "hue" = some hue ∧ hue.initial = "2" := by
  obtain ⟨bytes, encoded⟩ := Lamp.encode_database
  obtain ⟨back, decoded, -, classes⟩ := initial_of_parse Lamp.parse_text encoded
  obtain ⟨lamp, found, -, keyValues⟩ := classes "Lamp" Lamp.lamp Lamp.find?_lamp
  obtain ⟨glow, glowFound, -, -, glowInitial⟩ := keyValues "glow" Lamp.glow Lamp.get?_glow
  obtain ⟨hue, hueFound, -, -, hueInitial⟩ := keyValues "hue" Lamp.hue Lamp.get?_hue
  exact ⟨Lamp.parse_text, bytes, encoded, back, decoded, lamp, found,
    ⟨glow, glowFound, glowInitial⟩, hue, hueFound, hueInitial⟩

/-- The default text of the flag word of the lamp is lost: it is not true that all defaults
come back. -/
theorem not_initial_of_parse :
    ¬∀ (text : String) (db : Database) (bytes : List UInt8), Source.parse text = .ok db →
      encode db = .ok bytes → ∃ back, decode bytes = .ok back ∧
        ∀ name entity key keyValue, db.find? name = some entity →
          entity.keyValues.get? key = some keyValue →
          ∃ kept keptValue, back.find? name = some kept ∧
            kept.keyValues.get? key = some keptValue ∧ keptValue.initial = keyValue.initial := by
  intro lossless
  obtain ⟨bytes, encoded⟩ := Lamp.encode_database
  obtain ⟨back, decoded, same⟩ := lossless _ _ _ Lamp.parse_text encoded
  rw [decode_of_parse Lamp.parse_text encoded, Except.ok.injEq] at decoded
  subst decoded
  obtain ⟨kept, glow, found, glowFound, initial⟩ :=
    same "Lamp" Lamp.lamp "glow" Lamp.glow Lamp.find?_lamp Lamp.get?_glow
  rw [find?_restored, Lamp.find?_lamp, Option.map_some, Option.some.injEq] at found
  subst found
  rw [get?_compacted, Lamp.get?_glow, Option.map_some, Option.some.injEq] at glowFound
  subst glowFound
  exact absurd initial (by decide)

end Compact
end EntitySchema
