import EntitySchema.Proofs.Inheritance.Merging
import Mathlib.Data.Fintype.EquivFin

/-! Merging without a memory. Where no class inherits from itself, the members of a class can
be merged with those of its bases by plain recursion, as often as a class is met. A view
shows the same: what a walk skips because it has been there was merged before. -/
namespace EntitySchema.Database

open Relation
open MergedView (firsts)

variable {α : Type} {db : Database} {id base other : ClassId}
  {seen waiting middle rest after : List ClassId} {members : EntityClass → OrderedMap α}

/-- No class inherits from itself, at first or at second hand. -/
def Acyclic (db : Database) : Prop := ∀ id, ¬TransGen db.Inherits id id

theorem Acyclic.wellFounded (acyclic : db.Acyclic) :
    WellFounded fun base id => db.Inherits id base := by
  let inherited := fun base id => TransGen db.Inherits id base
  have : IsTrans ClassId inherited := ⟨fun _ _ _ near far => far.trans near⟩
  have : Std.Irrefl inherited := ⟨acyclic⟩
  have : Finite ClassId := .of_injective UInt32.toFin fun _ _ => UInt32.toFin_inj.mp
  exact Subrelation.wf .single (Finite.wellFounded_of_trans_of_irrefl inherited)

theorem inherits_of_mem_basesOf {entity : EntityClass} (known : db.classAt? id = some entity)
    (member : base ∈ db.basesOf entity) : db.Inherits id base := by
  rw [basesOf, List.mem_filter] at member
  exact (inherits_iff known).mpr member

/-- The members of a class merged with those of its bases: its own ones, and behind them the
merged members of each linked base, of which the first of each key are kept. -/
def plainMerge (acyclic : db.Acyclic) (members : EntityClass → OrderedMap α) (id : ClassId) :
    List (String × α) :=
  match _ : db.classAt? id with
  | some entity => firsts ((members entity).toList ++
      (db.basesOf entity).attach.flatMap fun ⟨base, _⟩ => plainMerge acyclic members base)
  | none => []
termination_by acyclic.wellFounded.wrap id
decreasing_by exact inherits_of_mem_basesOf ‹_› ‹_›

theorem plainMerge_of_classAt? {acyclic : db.Acyclic} {entity : EntityClass}
    (known : db.classAt? id = some entity) : db.plainMerge acyclic members id =
      firsts ((members entity).toList ++
        (db.basesOf entity).flatMap (db.plainMerge acyclic members)) := by
  rw [plainMerge]
  split
  · rename_i definition found
    cases known.symm.trans found
    simp [List.flatMap_subtype]
  · rename_i absent
    cases known.symm.trans absent

theorem plainMerge_of_missing {acyclic : db.Acyclic} (absent : db.classAt? id = none) :
    db.plainMerge acyclic members id = [] := by
  rw [plainMerge]
  split
  · rename_i entity found
    cases absent.symm.trans found
  · rfl

/-- The members that a class has itself. -/
def ownMembers (db : Database) (members : EntityClass → OrderedMap α) (id : ClassId) :
    List (String × α) :=
  (db.classAt? id).elim [] fun entity => (members entity).toList

theorem flatMap_links {acyclic : db.Acyclic} (entity : EntityClass) :
    entity.links.flatMap (db.plainMerge acyclic members) =
      (db.basesOf entity).flatMap (db.plainMerge acyclic members) := by
  rw [basesOf]
  induction entity.links with
  | nil => rfl
  | cons base links ih =>
    rw [List.flatMap_cons, ih, List.filter_cons]
    cases found : db.classAt? base with
    | none => simp [plainMerge_of_missing found]
    | some definition => simp

theorem firsts_plainMerge (acyclic : db.Acyclic) (id : ClassId) :
    firsts (db.plainMerge acyclic members id) = db.plainMerge acyclic members id := by
  cases found : db.classAt? id with
  | none => rw [plainMerge_of_missing found]; rfl
  | some entity =>
    rw [plainMerge_of_classAt? found, MergedView.firsts_of_nodup (MergedView.nodup_firsts _)]

theorem isSome_of_mem_plainMerge {acyclic : db.Acyclic} {entry : String × α}
    (member : entry ∈ db.plainMerge acyclic members id) : (db.classAt? id).isSome := by
  cases found : db.classAt? id with
  | none =>
    rw [plainMerge_of_missing found] at member
    cases member
  | some entity => rfl

/-- Every merged member is one of a class that is reached. -/
theorem exists_of_mem_plainMerge {acyclic : db.Acyclic} {entry : String × α}
    (member : entry ∈ db.plainMerge acyclic members id) :
    ∃ other, db.Reaches id other ∧ entry ∈ db.ownMembers members other := by
  induction id using acyclic.wellFounded.induction with
  | _ id ih =>
    cases found : db.classAt? id with
    | none =>
      rw [plainMerge_of_missing found] at member
      cases member
    | some entity =>
      rw [plainMerge_of_classAt? found] at member
      rcases List.mem_append.mp (MergedView.mem_of_mem_firsts member) with own | inherited
      · exact ⟨id, .refl, by rwa [ownMembers, found]⟩
      · obtain ⟨base, linked, merged⟩ := List.mem_flatMap.mp inherited
        have step := inherits_of_mem_basesOf found linked
        obtain ⟨other, reached, own⟩ := ih base step merged
        exact ⟨other, .head step reached, own⟩

/-- What is met again has been left: a class that has been seen and can be reached from the
row ahead leads only to classes that have been seen. -/
def Left (db : Database) (seen waiting : List ClassId) : Prop :=
  ∀ id ∈ seen, ∀ start ∈ waiting, (db.classAt? start).isSome → db.Reaches start id →
    ∀ other, db.Reaches id other → other ∈ seen

namespace Left

theorem start (waiting : List ClassId) : db.Left [] waiting := nofun

theorem tail (left : db.Left seen (id :: rest)) : db.Left seen rest :=
  fun old known start waits => left old known start (List.mem_cons_of_mem _ waits)

/-- The classes that are still open inherit from the row ahead, and cannot be reached. -/
theorem enter (acyclic : db.Acyclic) {entity : EntityClass} (found : db.classAt? id = some entity)
    (left : db.Left seen (id :: rest)) : db.Left (seen ++ [id]) entity.links := by
  intro old known start linked defined reached other beyond
  have step := (inherits_iff found).mpr ⟨linked, defined⟩
  rcases List.mem_append.mp known with known | open_
  · have some : (db.classAt? id).isSome := by rw [found]; rfl
    have within := left old known id List.mem_cons_self some (.head step reached) other beyond
    exact List.mem_append_left _ within
  · cases List.mem_singleton.mp open_
    exact absurd (.head' step reached) (acyclic id)

theorem leave (walk : db.Walks seen [id] middle) (left : db.Left seen (id :: rest)) :
    db.Left middle rest := by
  intro old known start waits defined reached other beyond
  induction beyond with
  | refl => exact known
  | @tail last other path step ih =>
    -- a class seen before the walk has been left already; one that it entered it has also left
    by_cases before : last ∈ seen
    · have met := reached.trans path
      have waits := List.mem_cons_of_mem id waits
      exact walk.mem_of_seen (left last before start waits defined met other (.single step))
    · exact walk.mem_of_inherits ih before step

end Left

/-- The induction follows the walk. What it skips has been merged before it is met again,
and what it enters is merged at that place. -/
theorem Walks.firsts_eq (acyclic : db.Acyclic) (members : EntityClass → OrderedMap α)
    (walk : db.Walks seen waiting after) (left : db.Left seen waiting) :
    firsts (after.flatMap (db.ownMembers members)) =
      firsts (seen.flatMap (db.ownMembers members) ++
        waiting.flatMap (db.plainMerge acyclic members)) := by
  induction walk with
  | done => simp
  | missing absent _ ih =>
    rw [ih left.tail, List.flatMap_cons, plainMerge_of_missing absent, List.nil_append]
  | @known id seen rest after old _ ih =>
    -- all that it leads to has been seen, so the members merged there are hidden already
    have merged : ∀ entry ∈ db.plainMerge acyclic members id,
        entry.1 ∈ (seen.flatMap (db.ownMembers members)).map Prod.fst := by
      intro entry member
      obtain ⟨other, reached, own⟩ := exists_of_mem_plainMerge member
      have defined := isSome_of_mem_plainMerge member
      have met := left id old id List.mem_cons_self defined .refl other reached
      exact List.mem_map_of_mem (List.mem_flatMap.mpr ⟨other, met, own⟩)
    rw [ih left.tail, List.flatMap_cons, MergedView.firsts_append_append_of_subset merged]
  | @entered id entity seen middle rest after fresh found inside walk within last =>
    have entered : db.Walks seen [id] middle := .entered fresh found inside .done
    have own : db.ownMembers members id = (members entity).toList := by
      rw [ownMembers, found]
      rfl
    rw [last (left.leave entered), ← MergedView.firsts_firsts_append,
      within (left.enter acyclic found), MergedView.firsts_firsts_append, List.flatMap_cons,
      plainMerge_of_classAt? found, MergedView.firsts_append_firsts_append, flatMap_links,
      List.flatMap_append, List.flatMap_singleton, own]
    simp only [List.append_assoc]

theorem flatMap_ancestry (members : EntityClass → OrderedMap α) (row : List ClassId) :
    ((row.filterMap db.classAt?).map members).flatMap OrderedMap.toList =
      row.flatMap (db.ownMembers members) := by
  induction row with
  | nil => rfl
  | cons id row ih =>
    rw [List.filterMap_cons, List.flatMap_cons, ← ih, ownMembers]
    cases db.classAt? id <;> rfl

/-- A view lists what a merge gives, and finds what comes first in it under a name. -/
def Shows (view : MergedView α) (merged : List (String × α)) : Prop :=
  view.entries = merged ∧ ∀ name, view.get? name = merged.lookup (fold name)

theorem shows_plainMerge (acyclic : db.Acyclic) (members : EntityClass → OrderedMap α)
    (id : ClassId) :
    Shows ⟨(db.ancestry id).map members⟩ (db.plainMerge acyclic members id) := by
  have merged := (db.walks_lineage id).firsts_eq acyclic members (.start [id])
  have listed : MergedView.entries ⟨(db.ancestry id).map members⟩ =
      db.plainMerge acyclic members id := by
    rw [MergedView.entries_eq, ancestry, flatMap_ancestry, merged, List.flatMap_nil,
      List.nil_append, List.flatMap_singleton, firsts_plainMerge]
  refine ⟨listed, fun name => ?_⟩
  rw [MergedView.get?_eq_lookup, listed]

/-- Without cycles, the views of a class show the plain recursive merge of it and its bases,
however many ways lead from the class to one of them. -/
theorem views_show_plainMerge (acyclic : db.Acyclic) (id : ClassId) :
    Shows (db.keyValuesOf id) (db.plainMerge acyclic EntityClass.keyValues id) ∧
      Shows (db.inputsOf id) (db.plainMerge acyclic EntityClass.inputs id) ∧
      Shows (db.outputsOf id) (db.plainMerge acyclic EntityClass.outputs id) :=
  ⟨shows_plainMerge acyclic _ id, shows_plainMerge acyclic _ id, shows_plainMerge acyclic _ id⟩

namespace Diamond

def speed : KeyValue := { KeyValue.plain "Speed" .integer with initial := "2" }

def top : EntityClass :=
  { EntityClass.plain .base "Top" with keyValues := Mutual.only (Mutual.health "1") }

def left : EntityClass :=
  { EntityClass.plain .base "Left" with
    bases := [.linked 0], keyValues := .ofDistinct [("speed", speed)] (by simp) }

def right : EntityClass :=
  { EntityClass.plain .base "Right" with
    bases := [.linked 0], keyValues := Mutual.only (Mutual.health "3") }

def bottom : EntityClass :=
  { EntityClass.plain .point "Bottom" with bases := [.linked 1, .linked 2] }

/-- A class with two bases that share a base of their own. -/
def database : Database :=
  ⟨.ofDistinct [("top", top), ("left", left), ("right", right), ("bottom", bottom)] (by decide),
    0, 0, []⟩

/-- Bases stand in front of the classes that inherit from them. -/
theorem lt_of_inherits {id base : ClassId} (step : database.Inherits id base) : base < id := by
  obtain ⟨entity, known, linked, -⟩ := step
  have few : id.toNat < 4 := lt_size_of_classAt? known
  have one : id = 0 ∨ id = 1 ∨ id = 2 ∨ id = 3 := by
    simp only [← UInt32.toNat_inj, UInt32.toNat_ofNat]
    omega
  rcases one with rfl | rfl | rfl | rfl
  all_goals cases known
  · cases linked
  · cases List.mem_singleton.mp linked
    decide
  · cases List.mem_singleton.mp linked
    decide
  · rcases List.mem_cons.mp linked with first | second
    · cases first
      decide
    · cases List.mem_singleton.mp second
      decide

theorem acyclic : database.Acyclic := by
  have lower : ∀ id base, TransGen database.Inherits id base → base < id := by
    intro id base path
    induction path with
    | single step => exact lt_of_inherits step
    | tail _ step ih => exact UInt32.lt_trans (lt_of_inherits step) ih
  exact fun id cycle => UInt32.lt_irrefl id (lower id id cycle)

theorem plainMerge_bottom : database.plainMerge acyclic EntityClass.keyValues 3 =
    [("speed", speed), ("health", Mutual.health "1")] := by
  have ofTop : database.plainMerge acyclic EntityClass.keyValues 0 =
      [("health", Mutual.health "1")] := by
    have known : database.classAt? 0 = some top := rfl
    rw [plainMerge_of_classAt? known]
    rfl
  have ofLeft : database.plainMerge acyclic EntityClass.keyValues 1 =
      [("speed", speed), ("health", Mutual.health "1")] := by
    have known : database.classAt? 1 = some left := rfl
    have bases : database.basesOf left = [0] := rfl
    rw [plainMerge_of_classAt? known, bases, List.flatMap_singleton, ofTop]
    rfl
  have ofRight : database.plainMerge acyclic EntityClass.keyValues 2 =
      [("health", Mutual.health "3")] := by
    have known : database.classAt? 2 = some right := rfl
    have bases : database.basesOf right = [0] := rfl
    rw [plainMerge_of_classAt? known, bases, List.flatMap_singleton, ofTop]
    rfl
  have known : database.classAt? 3 = some bottom := rfl
  have bases : database.basesOf bottom = [1, 2] := rfl
  rw [plainMerge_of_classAt? known, bases, List.flatMap_cons, List.flatMap_singleton, ofLeft,
    ofRight]
  rfl

end Diamond

/-- The member of the shared base is met on the way through the first base, and hides the one
of the second. -/
theorem views_show_plainMerge_diamond : Diamond.database.Acyclic ∧
    (Diamond.database.keyValuesOf 3).entries =
      [("speed", Diamond.speed), ("health", Mutual.health "1")] := by
  obtain ⟨⟨listed, -⟩, -, -⟩ := views_show_plainMerge Diamond.acyclic 3
  exact ⟨Diamond.acyclic, listed.trans Diamond.plainMerge_bottom⟩

end EntitySchema.Database
