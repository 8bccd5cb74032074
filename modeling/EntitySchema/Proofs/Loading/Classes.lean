import EntitySchema.Grammar.Header
import EntitySchema.Proofs.Building
import EntitySchema.Proofs.Grammar.BodyReaders
import EntitySchema.Proofs.Grammar.Flags
import EntitySchema.Proofs.Outcome

/-! Classes as they are read. A class is well-formed once its head is read, and every
member entered keeps it so, whether or not the rest of its body can be read. -/
namespace EntitySchema

namespace EntityClass

variable {entity : EntityClass}

/-- A class as it can be stored, its bases waiting or linked. -/
structure WellFormed (entity : EntityClass) : Prop where
  kept : entity.WellKept
  name : trimmed entity.name = entity.name
  signals : ∀ signal ∈ entity.inputs.values ++ entity.outputs.values, signal.type.hasList = false
  helpers : ∀ helper ∈ entity.helpers, helper.kind ≠ .inherit
  names : ∀ name ∈ entity.names, trimmed name = name ∧ fold name = name
  distinct : entity.names.Nodup

/-- A class none of whose bases is linked yet. -/
structure Fresh (entity : EntityClass) : Prop where
  wellFormed : entity.WellFormed
  unlinked : entity.links = []

namespace WellFormed

/-- All but the members of a class can be exchanged together. -/
theorem withHead (wellFormed : entity.WellFormed) {name description : String}
    {helpers : List Helper} {bases : List Base} (bare : trimmed name = name)
    (plain : ∀ helper ∈ helpers, helper.kind ≠ .inherit)
    (names : ∀ name, .named name ∈ bases → trimmed name = name ∧ fold name = name)
    (distinct : { entity with bases }.names.Nodup) :
    { entity with name, description, helpers, bases }.WellFormed where
  kept :=
    let ⟨keyValues, inputs, outputs, lists⟩ := wellFormed.kept
    ⟨keyValues, inputs, outputs, lists⟩
  name := bare
  signals := wellFormed.signals
  helpers := plain
  names := fun name inside => names name (mem_names.mp inside)
  distinct := distinct

theorem withBases (wellFormed : entity.WellFormed) {bases : List Base}
    (names : ∀ name, .named name ∈ bases → trimmed name = name ∧ fold name = name)
    (distinct : { entity with bases }.names.Nodup) : { entity with bases }.WellFormed :=
  wellFormed.withHead wellFormed.name wellFormed.helpers names distinct

theorem named (wellFormed : entity.WellFormed) (name : String)
    (waiting : .named name ∈ entity.bases) : trimmed name = name ∧ fold name = name :=
  wellFormed.names name (mem_names.mpr waiting)

theorem addHelper (wellFormed : entity.WellFormed) {helper : Helper}
    (plain : helper.kind ≠ .inherit) : (entity.addHelper helper).WellFormed := by
  refine wellFormed.withHead wellFormed.name ?_ wellFormed.named wellFormed.distinct
  intro other inside
  rcases List.mem_append.mp inside with old | only
  · exact wellFormed.helpers other old
  · rwa [List.mem_singleton.mp only]

theorem titled (wellFormed : entity.WellFormed) (name description : String) :
    { entity with name := trimmed name, description }.WellFormed :=
  wellFormed.withHead (trimmed_trimmed name) wellFormed.helpers wellFormed.named
    wellFormed.distinct

theorem addBase (wellFormed : entity.WellFormed) (name : String) :
    (entity.addBase name).WellFormed := by
  rw [EntityClass.addBase]
  split
  · exact wellFormed
  · rename_i new
    have folded : trimmed (fold (trimmed name)) = fold (trimmed name) :=
      trimmed_fold_iff.mpr (trimmed_trimmed name)
    refine wellFormed.withBases (fun other inside => ?_) ?_
    · rcases List.mem_append.mp inside with old | only
      · exact wellFormed.named other old
      · rw [Base.named.inj (List.mem_singleton.mp only)]
        exact ⟨folded, fold_fold _⟩
    · have names : ({ entity with bases := entity.bases ++ [.named (fold (trimmed name))] } :
          EntityClass).names = entity.names ++ [fold (trimmed name)] := by
        simp [EntityClass.names]
      rw [names, List.nodup_append]
      refine ⟨wellFormed.distinct, List.nodup_singleton _, ?_⟩
      intro other inside last only same
      rw [List.mem_singleton.mp only] at same
      rw [same] at inside
      exact new (mem_names.mp inside)

theorem addKeyValue (wellFormed : entity.WellFormed) {keyValue : KeyValue}
    (fits : keyValue.WellFormed) : (entity.addKeyValue keyValue).WellFormed where
  kept :=
    { keyValues := wellFormed.kept.keyValues.insert keyValue
      inputs := wellFormed.kept.inputs
      outputs := wellFormed.kept.outputs
      lists := by
        intro other inside
        rcases OrderedMap.mem_values_insert inside with rfl | old
        · exact fits
        · exact wellFormed.kept.lists other old }
  name := wellFormed.name
  signals := wellFormed.signals
  helpers := wellFormed.helpers
  names := wellFormed.names
  distinct := wellFormed.distinct

theorem addSignal (wellFormed : entity.WellFormed) (direction : Direction) {signal : Signal}
    (plain : signal.type.hasList = false) : (entity.addSignal direction signal).WellFormed := by
  obtain ⟨⟨keyValues, inputs, outputs, lists⟩, name, signals, helpers, names, distinct⟩ :=
    wellFormed
  rw [List.forall_mem_append] at signals
  have entered : ∀ map : OrderedMap Signal, (∀ old ∈ map.values, old.type.hasList = false) →
      ∀ other ∈ (map.insert (fold signal.name) signal).values, other.type.hasList = false := by
    intro map clear other inside
    rcases OrderedMap.mem_values_insert inside with rfl | old
    · exact plain
    · exact clear other old
  cases direction with
  | input =>
    exact ⟨⟨keyValues, inputs.insert signal, outputs, lists⟩, name,
      List.forall_mem_append.mpr ⟨entered _ signals.1, signals.2⟩, helpers, names, distinct⟩
  | output =>
    exact ⟨⟨keyValues, inputs, outputs.insert signal, lists⟩, name,
      List.forall_mem_append.mpr ⟨signals.1, entered _ signals.2⟩, helpers, names, distinct⟩

end WellFormed

theorem links_addBase (entity : EntityClass) (name : String) :
    (entity.addBase name).links = entity.links := by
  rw [addBase]
  split
  · rfl
  · simp [links]

namespace Fresh

theorem plain (category : Category) : Fresh (plain category "") where
  wellFormed :=
    { kept := ⟨.empty, .empty, .empty, nofun⟩
      name := rfl
      signals := nofun
      helpers := nofun
      names := nofun
      distinct := List.nodup_nil }
  unlinked := rfl

theorem addBases (fresh : entity.Fresh) (names : List String) :
    (names.foldl EntityClass.addBase entity).Fresh := by
  induction names generalizing entity with
  | nil => exact fresh
  | cons name names ih =>
    exact ih ⟨fresh.wellFormed.addBase name, (links_addBase entity name).trans fresh.unlinked⟩

theorem enterHelper (fresh : entity.Fresh) (kind : HelperKind) (arguments : List String) :
    (Grammar.enterHelper entity kind arguments).Fresh := by
  by_cases inherits : kind = .inherit
  · subst inherits
    exact fresh.addBases arguments
  · have entered :
        Grammar.enterHelper entity kind arguments = entity.addHelper ⟨kind, arguments⟩ := by
      cases kind <;> first | rfl | exact (inherits rfl).elim
    rw [entered]
    exact ⟨fresh.wellFormed.addHelper inherits, fresh.unlinked⟩

theorem enterPending (fresh : entity.Fresh) (pending : Option HelperKind) :
    (Grammar.enterPending entity pending).Fresh := by
  cases pending with
  | none => exact fresh
  | some kind => exact fresh.enterHelper kind []

theorem readHelpers (fresh : entity.Fresh) (pending : Option HelperKind) :
    Yields (Grammar.readHelpers entity pending) Fresh := by
  intro stream result rest read
  fun_induction Grammar.readHelpers with
  | case1 entity pending token more lineBreak ih => exact ih fresh read
  | case2 entity pending token more string kind known ih =>
    exact ih (fresh.enterPending pending) read
  | case3 => cases read
  | case4 entity token more arguments kind ih => exact ih (fresh.enterHelper kind _) read
  | case5 => cases read
  | case6 entity pending token more equals =>
    cases read
    exact fresh.enterPending pending
  | _ => cases read

/-- Whatever head is read, it yields a class to which members can be added. -/
theorem readHead (category : Category) : Yields (Grammar.readHead category) Fresh := by
  rw [Grammar.readHead]
  refine ((plain category).readHelpers none).bind fun entity fresh => ?_
  refine Yields.trivial.bind fun name _ => ?_
  refine Yields.trivial.bind fun description _ => ?_
  exact .pure ⟨fresh.wellFormed.titled name.text description, fresh.unlinked⟩

end Fresh

end EntityClass

namespace Grammar

/-- What can be entered into a class. -/
def Member.WellFormed : Member → Prop
  | .keyValue property => property.WellFormed
  | .signal _ declared => declared.type.hasList = false

theorem power_of_flagBit {value classname : String} {bit : FlagBit}
    (denoted : flagBit value classname = .ok bit) : bit.power ≤ 127 := by
  cases flagBit_eq_iff.mp denoted with
  | bit small _ => exact small

theorem power_of_flagEntry {classname value : String} {fields : List String} {entry : FlagEntry}
    (made : flagEntry classname value fields = .ok entry) : entry.bit.power ≤ 127 := by
  rw [flagEntry, bind_eq_ok_iff] at made
  obtain ⟨bit, denoted, same⟩ := made
  cases same
  exact power_of_flagBit denoted

variable {α : Type} {ends : TokenKind → Prop} {classname name : String} {tokens : List Token}

theorem Block.forall_of_item {item : List Token → α → Bool → Prop} {P : α → Prop}
    (each : ∀ tokens value closed, item tokens value closed → P value) {values : List α}
    (block : Block item tokens values) : ∀ value ∈ values, P value := by
  induction block with
  | close _ => exact nofun
  | skip _ _ ih => exact ih
  | more first _ ih => exact List.forall_mem_cons.mpr ⟨each _ _ _ first, ih⟩
  | last only => exact List.forall_mem_singleton.mpr (each _ _ _ only)

theorem KeyValued.wellFormed {keyValue : KeyValue} {closed : Bool}
    (read : KeyValued ends classname name tokens keyValue closed) : keyValue.WellFormed := by
  cases read with
  | plain typed plain marked attributes few ends bare =>
    exact ⟨plain, nofun⟩
  | listed typed marked attributes few equals opening list =>
    cases list with
    | flags block =>
      refine ⟨rfl, block.forall_of_item fun _ _ _ read => ?_⟩
      obtain ⟨string, attributes, some, few, ends, made⟩ := read
      exact power_of_flagEntry made
    | choices block => exact ⟨rfl, nofun⟩

theorem Line.wellFormed {member : Member} {closed : Bool}
    (line : Line ends classname tokens member closed) : member.WellFormed := by
  cases line with
  | signal _ _ read =>
    obtain ⟨named, typed, plain, attributes, few, ends⟩ := read
    exact plain
  | keyValue _ _ read => exact read.wellFormed

theorem Member.enter_fresh {entity : EntityClass} {member : Member} (fresh : entity.Fresh)
    (wellFormed : member.WellFormed) : (member.enter entity).Fresh := by
  cases member with
  | keyValue property => exact ⟨fresh.wellFormed.addKeyValue wellFormed, fresh.unlinked⟩
  | signal direction declared =>
    refine ⟨fresh.wellFormed.addSignal direction wellFormed, ?_⟩
    cases direction <;> exact fresh.unlinked

/-- Whether a body is read to its end or not, what has been entered is well-formed. -/
theorem fresh_readBody {entity : EntityClass} (fresh : entity.Fresh) (stream : TokenStream) :
    (readBody entity stream).1.Fresh := by
  fun_induction readBody with
  | case2 entity token more lineBreak ih => exact ih fresh
  | case3 entity token more string member after found =>
    obtain ⟨_, _, line⟩ := (accepts_readMember _ string _ _ _).mp found
    exact Member.enter_fresh fresh line.wellFormed
  | case4 entity token more string member closed after found _ ih =>
    obtain ⟨_, _, line⟩ := (accepts_readMember _ string _ _ _).mp found
    exact ih (Member.enter_fresh fresh line.wellFormed)
  | _ => exact fresh

end Grammar
end EntitySchema
