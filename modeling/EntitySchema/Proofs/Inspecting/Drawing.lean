import EntitySchema.Inspector
import EntitySchema.Proofs.Inheritance.PlainMerge
import Mathlib.Data.List.DropRight

/-! Drawing the inheritance tree of a class. The lines of a tree are what a recursion over
linked bases draws that enters no class twice; it visits classes as the lineage does, and
where a line stands tells the path that leads to it. -/
namespace EntitySchema

namespace Inspector

/-- A line of an inheritance tree, with the classes on the path to it, nearest first. -/
structure Node where
  path : List ClassId
  id : ClassId
  repeated : Bool
  deriving DecidableEq, Repr

def Node.branch (node : Node) : Branch := ⟨node.path.length, node.id, node.repeated⟩

/-- The lines of a tree below the last line of a path: the path to a line goes through the
nearest lines above it that are indented less. -/
def nodesFrom (above : List ClassId) : List Branch → List Node
  | [] => []
  | branch :: rest =>
    let path := above.rtake branch.depth
    ⟨path, branch.id, branch.repeated⟩ :: nodesFrom (branch.id :: path) rest

def nodes (branches : List Branch) : List Node := nodesFrom [] branches

/-- A command line that asks for the inheritance tree of the class with a number. -/
def Asks (db : Database) (input : String) (id : ClassId) : Prop :=
  ∃ command name more, (Text.words input.toList).map String.ofList = command :: name :: more ∧
    fold command = "bases" ∧ db.idOf? name = some id ∧ (db.find? name).isSome

theorem eval_of_asks {db : Database} {input : String} {id : ClassId} (asked : Asks db input id) :
    eval db input = .text (bases db id) := by
  obtain ⟨command, name, more, words, folded, number, defined⟩ := asked
  obtain ⟨entity, found⟩ := Option.isSome_iff_exists.mp defined
  unfold eval
  rw [words]
  simp only [folded, aboutClass, number, found]

end Inspector

namespace Database

open Inspector

variable {db : Database} {id base : ClassId} {entity : EntityClass} {node parent : Node}
  {path seen waiting middle rest after : List ClassId} {drawn inside : List Node}

/-- Drawing a row of classes one after the other below the last class of a path, each followed
by its linked bases if it is entered for the first time. -/
inductive Draws (db : Database) :
    List ClassId → List ClassId → List ClassId → List Node → List ClassId → Prop
  | done {path seen : List ClassId} : Draws db path seen [] [] seen
  | again {id : ClassId} {entity : EntityClass} {path seen rest after : List ClassId}
      {drawn : List Node} : id ∈ seen → db.classAt? id = some entity →
      Draws db path seen rest drawn after →
      Draws db path seen (id :: rest) (⟨path, id, true⟩ :: drawn) after
  | entered {id : ClassId} {entity : EntityClass} {path seen middle rest after : List ClassId}
      {inside drawn : List Node} : id ∉ seen → db.classAt? id = some entity →
      Draws db (id :: path) (seen ++ [id]) (db.basesOf entity) inside middle →
      Draws db path middle rest drawn after →
      Draws db path seen (id :: rest) (⟨path, id, false⟩ :: (inside ++ drawn)) after

/-- A walk through a row of classes can be drawn below any path. -/
theorem Walks.exists_draws (walk : db.Walks seen waiting after) (path : List ClassId) :
    ∃ drawn, db.Draws path seen (waiting.filter fun id => (db.classAt? id).isSome) drawn after := by
  induction walk generalizing path with
  | done => exact ⟨[], .done⟩
  | missing absent _ ih =>
    obtain ⟨drawn, draws⟩ := ih path
    exact ⟨drawn, by simpa [absent] using draws⟩
  | @known id seen rest after old _ ih =>
    obtain ⟨drawn, draws⟩ := ih path
    cases found : db.classAt? id with
    | none => exact ⟨drawn, by simpa [found] using draws⟩
    | some entity => exact ⟨_, by simpa [found] using draws.again old found⟩
  | @entered id entity seen middle rest after fresh found _ _ within last =>
    obtain ⟨inside, inner⟩ := within (id :: path)
    obtain ⟨drawn, outer⟩ := last path
    exact ⟨_, by simpa [found] using Draws.entered fresh found inner outer⟩

namespace Draws

theorem begins (draws : db.Draws path seen waiting drawn after) : seen <+: after := by
  induction draws with
  | done => exact List.prefix_refl _
  | again _ _ _ ih => exact ih
  | entered _ _ _ _ within last => exact (List.prefix_append _ _).trans (within.trans last)

theorem unique {drawn' : List Node} {after' : List ClassId}
    (draws : db.Draws path seen waiting drawn after)
    (other : db.Draws path seen waiting drawn' after') : drawn = drawn' ∧ after = after' := by
  induction draws generalizing drawn' after' with
  | done =>
    cases other
    exact ⟨rfl, rfl⟩
  | again old _ _ ih =>
    cases other with
    | again _ _ rest =>
      obtain ⟨rfl, rfl⟩ := ih rest
      exact ⟨rfl, rfl⟩
    | entered fresh _ _ _ => exact absurd old fresh
  | entered fresh found _ _ within last =>
    cases other with
    | again old _ _ => exact absurd old fresh
    | entered _ found' inside rest =>
      cases found.symm.trans found'
      obtain ⟨rfl, rfl⟩ := within inside
      obtain ⟨rfl, rfl⟩ := last rest
      exact ⟨rfl, rfl⟩

/-- The drawing that keeps a list of what waits does the same, whatever waits behind. -/
theorem treeFrom_append (draws : db.Draws path seen waiting drawn after) (found : List Branch)
    (behind : List (Nat × ClassId)) :
    treeFrom db seen.reverse found (waiting.map (path.length, ·) ++ behind) =
      treeFrom db after.reverse ((drawn.map Node.branch).reverse ++ found) behind := by
  induction draws generalizing found behind with
  | done => rfl
  | @again id entity path seen rest after drawn old known _ ih =>
    rw [List.map_cons, List.cons_append, treeFrom]
    split
    · rename_i absent
      cases known.symm.trans absent
    · rw [dif_neg (by simpa using old), ih]
      simp [Node.branch]
  | @entered id entity path seen middle rest after inside drawn fresh known _ _ within last =>
    rw [List.map_cons, List.cons_append, treeFrom]
    split
    · rename_i absent
      cases known.symm.trans absent
    · rename_i definition same
      cases known.symm.trans same
      have entered := within (⟨path.length, id, false⟩ :: found)
        (rest.map (path.length, ·) ++ behind)
      rw [List.reverse_append, List.reverse_singleton, List.singleton_append] at entered
      rw [dif_pos (by simpa using fresh)]
      refine entered.trans ((last _ _).trans ?_)
      simp [Node.branch]

/-- Reading off the paths leads back to what was drawn. -/
theorem nodesFrom_append (draws : db.Draws path seen waiting drawn after) (lower : List ClassId)
    (behind : List Branch) :
    ∃ lower', nodesFrom (lower ++ path) (drawn.map Node.branch ++ behind) =
      drawn ++ nodesFrom (lower' ++ path) behind := by
  have kept : ∀ lower path : List ClassId, (lower ++ path).rtake path.length = path := by
    intro lower path
    simp [List.rtake]
  induction draws generalizing lower behind with
  | done => exact ⟨lower, rfl⟩
  | @again id entity path seen rest after drawn _ _ _ ih =>
    obtain ⟨lower', same⟩ := ih [id] behind
    refine ⟨lower', ?_⟩
    rw [List.map_cons, List.cons_append, nodesFrom]
    simp only [Node.branch, kept]
    exact congrArg _ same
  | @entered id entity path seen middle rest after inside drawn _ _ _ _ within last =>
    obtain ⟨inner, first⟩ := within [] (drawn.map Node.branch ++ behind)
    obtain ⟨lower', second⟩ := last (inner ++ [id]) behind
    refine ⟨lower', ?_⟩
    rw [List.append_assoc, List.singleton_append] at second
    rw [List.map_cons, List.cons_append, nodesFrom, List.map_append, List.append_assoc]
    simp only [Node.branch, kept]
    rw [List.cons_append, List.append_assoc, ← second, ← first]
    rfl

/-- The classes on lines that are not marked are those that have been entered, in order. -/
theorem after_eq (draws : db.Draws path seen waiting drawn after) :
    after = seen ++ (drawn.filter fun node => !node.repeated).map Node.id := by
  induction draws with
  | done => simp
  | again _ _ _ ih => simpa using ih
  | entered _ _ _ _ within last =>
    rw [last, within]
    simp

theorem mem_after (draws : db.Draws path seen waiting drawn after) (member : node ∈ drawn) :
    node.id ∈ after := by
  induction draws with
  | done => cases member
  | again old _ rest ih =>
    rcases List.mem_cons.mp member with rfl | later
    · exact rest.begins.subset old
    · exact ih later
  | entered _ _ inside rest within last =>
    rcases List.mem_cons.mp member with rfl | below
    · exact rest.begins.subset (inside.begins.subset (by simp))
    · rcases List.mem_append.mp below with inner | later
      · exact rest.begins.subset (within inner)
      · exact last later

/-- A line that is not marked is the first one of its class. -/
theorem not_mem_seen (draws : db.Draws path seen waiting drawn after) (member : node ∈ drawn)
    (first : node.repeated = false) : node.id ∉ seen := by
  induction draws with
  | done => cases member
  | again _ _ _ ih =>
    rcases List.mem_cons.mp member with rfl | later
    · cases first
    · exact ih later
  | entered fresh _ inside rest within last =>
    rcases List.mem_cons.mp member with rfl | below
    · exact fresh
    · intro old
      rcases List.mem_append.mp below with inner | later
      · exact within inner (List.mem_append_left _ old)
      · exact last later (inside.begins.subset (List.mem_append_left _ old))

/-- A line stands below the path at which a row is drawn, on a way through classes that the
drawing enters. -/
theorem exists_lower (draws : db.Draws path seen waiting drawn after) (member : node ∈ drawn) :
    ∃ lower, node.path = lower ++ path ∧ ∀ id ∈ lower, id ∉ seen ∧ id ∈ after := by
  induction draws with
  | done => cases member
  | again _ _ _ ih =>
    rcases List.mem_cons.mp member with rfl | later
    · exact ⟨[], rfl, nofun⟩
    · exact ih later
  | @entered id _ _ _ _ _ _ _ _ fresh _ inside rest within last =>
    rcases List.mem_cons.mp member with rfl | below
    · exact ⟨[], rfl, nofun⟩
    rcases List.mem_append.mp below with inner | later
    · obtain ⟨lower, same, entered⟩ := within inner
      refine ⟨lower ++ [id], by simpa using same, fun other on => ?_⟩
      rcases List.mem_append.mp on with deeper | top
      · obtain ⟨new, visited⟩ := entered other deeper
        exact ⟨fun old => new (List.mem_append_left _ old), rest.begins.subset visited⟩
      · cases List.mem_singleton.mp top
        exact ⟨fresh, rest.begins.subset (inside.begins.subset (by simp))⟩
    · obtain ⟨lower, same, entered⟩ := last later
      refine ⟨lower, same, fun other on => ⟨fun old => ?_, (entered other on).2⟩⟩
      exact (entered other on).1 (inside.begins.subset (List.mem_append_left _ old))

/-- A property of ways down to a class, nearest class first, that holds at the classes of a row
and is kept by steps to linked bases, of classes that are entered, holds at every line. -/
theorem forall_ways {P : List ClassId → Prop} (draws : db.Draws path seen waiting drawn after)
    (entered : ∀ id ∈ path, id ∈ seen) (start : ∀ id ∈ waiting, P (id :: path))
    (step : ∀ id above base, id ∉ above → P (id :: above) → db.Inherits id base →
      P (base :: id :: above)) (member : node ∈ drawn) : P (node.id :: node.path) := by
  induction draws with
  | done => cases member
  | again _ _ _ ih =>
    rcases List.mem_cons.mp member with rfl | later
    · exact start _ List.mem_cons_self
    · exact ih entered (fun id waits => start id (List.mem_cons_of_mem _ waits)) later
  | @entered id _ path _ _ _ _ _ _ fresh known inside rest within last =>
    have here := start id List.mem_cons_self
    rcases List.mem_cons.mp member with rfl | below
    · exact here
    rcases List.mem_append.mp below with inner | later
    · refine within ?_ (fun base linked => ?_) inner
      · intro other on
        rcases List.mem_cons.mp on with rfl | above
        · simp
        · exact List.mem_append_left _ (entered other above)
      · have top : id ∉ path := fun on => fresh (entered id on)
        exact step id path base top here (inherits_of_mem_basesOf known linked)
    · refine last (fun other on => inside.begins.subset ?_) (fun other waits => ?_) later
      · exact List.mem_append_left _ (entered other on)
      · exact start other (List.mem_cons_of_mem _ waits)

/-- Each class on the path to a line is a linked base of the one above it. -/
theorem isChain (draws : db.Draws [] [] waiting drawn after) (member : node ∈ drawn) :
    (node.id :: node.path).IsChain fun base id => db.Inherits id base :=
  draws.forall_ways nofun (fun _ _ => .singleton _)
    (fun _ _ _ _ above step => .cons_cons step above) member

end Draws

theorem exists_draws_tree (known : db.classAt? id = some entity) :
    db.Draws [] [] [id] (nodes (tree db id)) (db.lineage id) ∧
      tree db id = (nodes (tree db id)).map Node.branch := by
  obtain ⟨drawn, draws⟩ := (db.walks_lineage id).exists_draws []
  rw [List.filter_singleton, known] at draws
  have whole : tree db id = drawn.map Node.branch := by
    have same := draws.treeFrom_append [] []
    simpa [tree, treeFrom] using same
  have read : nodes (tree db id) = drawn := by
    obtain ⟨lower, same⟩ := draws.nodesFrom_append [] []
    simpa [nodes, whole, nodesFrom] using same
  rw [read]
  exact ⟨draws, whole⟩

/-- The recursive drawing ends on every database, in one way. -/
theorem draws_iff (known : db.classAt? id = some entity) : db.Draws [] [] [id] drawn after ↔
    drawn = nodes (tree db id) ∧ after = db.lineage id := by
  obtain ⟨draws, -⟩ := exists_draws_tree known
  constructor
  · exact fun other => other.unique draws
  · rintro ⟨rfl, rfl⟩
    exact draws

/-- Two classes that inherit from each other, and one from itself. -/
theorem draws_mutual : Mutual.database.Draws [] [] [0]
    [⟨[], 0, false⟩, ⟨[0], 0, true⟩, ⟨[0], 1, false⟩, ⟨[1, 0], 0, true⟩] [0, 1] := by
  have first : Mutual.database.classAt? 0 = some Mutual.a := rfl
  have second : Mutual.database.classAt? 1 = some Mutual.b := rfl
  have back : Mutual.database.Draws [1, 0] [0, 1] [0] [⟨[1, 0], 0, true⟩] [0, 1] :=
    .again (by decide) first .done
  have fresh : (1 : ClassId) ∉ [0] := by decide
  have below : Mutual.database.Draws [0] [0] [0, 1]
      [⟨[0], 0, true⟩, ⟨[0], 1, false⟩, ⟨[1, 0], 0, true⟩] [0, 1] :=
    .again (by decide) first (.entered fresh second back .done)
  exact .entered List.not_mem_nil first below .done

end Database
end EntitySchema
