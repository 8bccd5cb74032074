import EntitySchema.Proofs.Inspecting.Drawing

/-! Marks of cycles in inheritance trees. A line is marked if its class has stood in the tree
before. That is so wherever a class is its own ancestor, but also wherever a class can be
reached in two ways; where there are no two ways to any class, the marks tell cycles. -/
namespace EntitySchema.Database

open Inspector Relation

variable {db : Database} {id base child : ClassId} {entity : EntityClass} {node parent : Node}
  {path seen waiting middle rest after : List ClassId} {drawn inside : List Node}

/-- A way down from a class along links to bases that meets no class twice, nearest class
first. -/
inductive Way (db : Database) (id : ClassId) : List ClassId → Prop
  | start : Way db id [id]
  | step {child base : ClassId} {path : List ClassId} : Way db id (child :: path) →
      db.Inherits child base → base ∉ child :: path → Way db id (base :: child :: path)

/-- No class can be reached in two ways, neither through other classes nor by another of the
links that a class has. -/
structure Unshared (db : Database) (id : ClassId) : Prop where
  unique : ∀ base path path', db.Way id (base :: path) → db.Way id (base :: path') → path = path'
  distinct : ∀ child path entity, db.Way id (child :: path) → db.classAt? child = some entity →
    ((db.basesOf entity).filter (· ∉ child :: path)).Nodup

/-- No path is below itself. -/
theorem below_ne (lower : List ClassId) (id : ClassId) (path : List ClassId) :
    lower ++ id :: path ≠ path := by
  intro same
  have length := congrArg List.length same
  rw [List.length_append, List.length_cons] at length
  omega

theorem cons_below_ne (child : ClassId) (upper path : List ClassId) :
    path ≠ child :: (upper ++ path) := by
  intro same
  have length := congrArg List.length same
  rw [List.length_cons, List.length_append] at length
  omega

namespace Draws

/-- The classes on the path to a line are distinct, and a line that is not marked adds another
one. -/
theorem nodup_path (draws : db.Draws [] [] waiting drawn after) (member : node ∈ drawn) :
    node.path.Nodup := by
  refine draws.forall_ways (P := fun way => way.tail.Nodup) nofun (fun _ _ => .nil) ?_ member
  exact fun id above base top distinct _ => List.nodup_cons.mpr ⟨top, distinct⟩

theorem not_mem_path (draws : db.Draws path seen waiting drawn after)
    (entered : ∀ id ∈ path, id ∈ seen) (member : node ∈ drawn) (first : node.repeated = false) :
    node.id ∉ node.path := by
  induction draws with
  | done => cases member
  | again _ _ _ ih =>
    rcases List.mem_cons.mp member with rfl | later
    · cases first
    · exact ih entered later
  | @entered id _ path _ _ _ _ _ _ fresh _ inside _ within last =>
    rcases List.mem_cons.mp member with rfl | below
    · exact fun on => fresh (entered id on)
    rcases List.mem_append.mp below with inner | later
    · refine within (fun other on => ?_) inner
      rcases List.mem_cons.mp on with rfl | above
      · simp
      · exact List.mem_append_left _ (entered other above)
    · refine last (fun other on => inside.begins.subset ?_) later
      exact List.mem_append_left _ (entered other on)

theorem way (draws : db.Draws [] [] [id] drawn after) (member : node ∈ drawn)
    (new : node.id ∉ node.path) : db.Way id (node.id :: node.path) := by
  refine draws.forall_ways (P := fun way => way.Nodup → db.Way id way) nofun ?_ ?_ member
    (List.nodup_cons.mpr ⟨new, draws.nodup_path member⟩)
  · rintro top waits -
    cases List.mem_singleton.mp waits
    exact .start
  · intro child above base _ reached step distinct
    obtain ⟨fresh, rest⟩ := List.nodup_cons.mp distinct
    exact .step (reached rest) step fresh

/-- No line is drawn right below a path that leaves the classes that the drawing enters. -/
theorem filter_path_eq_nil (draws : db.Draws path seen waiting drawn after) {above : List ClassId}
    (leaves : ∀ lower, above = lower ++ path → ∃ id ∈ lower, id ∈ seen ∨ id ∉ after) :
    drawn.filter (·.path = above) = [] := by
  rw [List.filter_eq_nil_iff]
  intro node member same
  obtain ⟨lower, split, entered⟩ := draws.exists_lower member
  obtain ⟨id, on, old | missing⟩ := leaves lower ((of_decide_eq_true same).symm.trans split)
  · exact (entered id on).1 old
  · exact missing (entered id on).2

/-- The lines right below a path are those of the row that is drawn there. -/
theorem filter_path (draws : db.Draws path seen waiting drawn after) :
    (drawn.filter (·.path = path)).map Node.id = waiting := by
  induction draws with
  | done => rfl
  | again _ _ _ ih => simpa using ih
  | @entered id _ path _ _ _ _ inside drawn _ _ inner _ _ last =>
    have deeper : inside.filter (·.path = path) = [] :=
      inner.filter_path_eq_nil fun lower same => (below_ne lower id path same.symm).elim
    simpa [deeper] using last

/-- The class that a path goes through last stands on a line that is not marked. -/
theorem mem_of_path (draws : db.Draws path seen waiting drawn after) (member : node ∈ drawn)
    (upper : List ClassId) (above : node.path = child :: (upper ++ path)) :
    ⟨upper ++ path, child, false⟩ ∈ drawn := by
  induction draws generalizing upper with
  | done => cases member
  | again _ _ _ ih =>
    rcases List.mem_cons.mp member with rfl | later
    · exact (cons_below_ne child upper _ above).elim
    · exact List.mem_cons_of_mem _ (ih later upper above)
  | @entered id _ path _ _ _ _ _ _ _ _ inner _ within last =>
    rcases List.mem_cons.mp member with rfl | below
    · exact (cons_below_ne child upper _ above).elim
    rcases List.mem_append.mp below with inside | later
    · obtain ⟨lower, split, -⟩ := inner.exists_lower inside
      rw [split] at above
      cases lower with
      | nil =>
        obtain ⟨rfl, same⟩ := List.cons.inj above
        rw [← same]
        exact List.mem_cons_self
      | cons lowest lower =>
        obtain ⟨rfl, same⟩ := List.cons.inj above
        rw [← same]
        exact List.mem_cons_of_mem _ (List.mem_append_left _ (within inside lower split))
    · exact List.mem_cons_of_mem _ (List.mem_append_right _ (last later upper above))

/-- The lines right below a line that is not marked are those of the bases of its class. -/
theorem filter_path_of_first (draws : db.Draws path seen waiting drawn after)
    (member : parent ∈ drawn) (first : parent.repeated = false)
    (known : db.classAt? parent.id = some entity) :
    (drawn.filter (·.path = parent.id :: parent.path)).map Node.id = db.basesOf entity := by
  induction draws with
  | done => cases member
  | again _ _ rest ih =>
    rcases List.mem_cons.mp member with rfl | later
    · cases first
    · obtain ⟨upper, split, -⟩ := rest.exists_lower later
      have apart := cons_below_ne parent.id upper
      rw [List.filter_cons_of_neg (by simpa [split] using apart _)]
      exact ih later
  | @entered id definition path seen middle rest after inside drawn fresh found inner outer within
      last =>
    have visited : id ∈ middle := inner.begins.subset (by simp)
    obtain ⟨upper, split, -⟩ := (Draws.entered fresh found inner outer).exists_lower member
    have apart : path ≠ parent.id :: parent.path := split ▸ cons_below_ne parent.id upper path
    rw [List.filter_cons_of_neg (by simpa using apart), List.filter_append, List.map_append]
    rcases List.mem_cons.mp member with rfl | below
    · cases found.symm.trans known
      have behind : drawn.filter (·.path = id :: path) = [] := by
        refine outer.filter_path_eq_nil fun lower same => ⟨id, ?_, .inl visited⟩
        have single : [id] = lower := List.append_cancel_right same
        rw [← single]
        exact List.mem_singleton_self id
      rw [behind, inner.filter_path, List.map_nil, List.append_nil]
    rcases List.mem_append.mp below with under | later
    · obtain ⟨deeper, through, -⟩ := inner.exists_lower under
      have behind : drawn.filter (·.path = parent.id :: parent.path) = [] := by
        refine outer.filter_path_eq_nil fun lower same => ⟨id, ?_, .inl visited⟩
        rw [through, ← List.cons_append, List.append_cons] at same
        rw [← List.append_cancel_right same]
        exact List.mem_append_right _ (List.mem_singleton_self id)
      rw [behind, within under, List.map_nil, List.append_nil]
    · have new : parent.id ∉ middle := outer.not_mem_seen later first
      have ahead : inside.filter (·.path = parent.id :: parent.path) = [] := by
        refine inner.filter_path_eq_nil fun lower same => ?_
        cases lower with
        | nil => exact (new ((List.cons.inj same).1 ▸ visited)).elim
        | cons top lower => exact ⟨top, List.mem_cons_self, .inr ((List.cons.inj same).1 ▸ new)⟩
      rw [ahead, last later, List.map_nil, List.nil_append]

end Draws

/-- The marks of a tree stand at the classes that are their own ancestors, and only there. -/
def Truthful (drawn : List Node) : Prop :=
  ∀ node ∈ drawn, node.repeated = true ↔ node.id ∈ node.path

section Tree

variable (draws : db.Draws [] [] [id] drawn after)

include draws

theorem exists_first (member : node ∈ drawn) : ∃ path, ⟨path, node.id, false⟩ ∈ drawn := by
  have entered := draws.mem_after member
  rw [draws.after_eq, List.nil_append] at entered
  obtain ⟨⟨path, _, repeated⟩, found, rfl⟩ := List.mem_map.mp entered
  obtain ⟨listed, first⟩ := List.mem_filter.mp found
  obtain rfl : repeated = false := by simpa using first
  exact ⟨path, listed⟩

theorem mem_of_start : ∃ repeated, ⟨[], id, repeated⟩ ∈ drawn := by
  have start : id ∈ (drawn.filter (·.path = [])).map Node.id := by
    rw [draws.filter_path]
    exact List.mem_singleton_self id
  obtain ⟨⟨path, _, repeated⟩, found, rfl⟩ := List.mem_map.mp start
  obtain ⟨listed, top⟩ := List.mem_filter.mp found
  obtain rfl : path = [] := of_decide_eq_true top
  exact ⟨repeated, listed⟩

theorem mem_of_base (listed : ⟨path, child, false⟩ ∈ drawn) (step : db.Inherits child base) :
    ∃ repeated, ⟨child :: path, base, repeated⟩ ∈ drawn := by
  obtain ⟨entity, known, linked, defined⟩ := step
  have below : base ∈ (drawn.filter (·.path = child :: path)).map Node.id := by
    rw [draws.filter_path_of_first listed rfl known, basesOf, List.mem_filter]
    exact ⟨EntityClass.mem_links.mpr linked, defined⟩
  obtain ⟨⟨_, _, repeated⟩, found, rfl⟩ := List.mem_map.mp below
  obtain ⟨listed, same⟩ := List.mem_filter.mp found
  obtain rfl := of_decide_eq_true same
  exact ⟨repeated, listed⟩

/-- In a truthful tree, each way down from its root leads to a line that is not marked. -/
theorem mem_of_way (truthful : Truthful drawn) {way : List ClassId} (down : db.Way id way) :
    ∃ base path, way = base :: path ∧ ⟨path, base, false⟩ ∈ drawn := by
  have unmarked : ∀ {path base repeated}, ⟨path, base, repeated⟩ ∈ drawn → base ∉ path →
      ⟨path, base, false⟩ ∈ drawn := by
    intro path base repeated listed fresh
    cases repeated with
    | false => exact listed
    | true => exact absurd ((truthful _ listed).mp rfl) fresh
  induction down with
  | start =>
    obtain ⟨repeated, listed⟩ := mem_of_start draws
    exact ⟨id, [], rfl, unmarked listed List.not_mem_nil⟩
  | step _ step fresh ih =>
    obtain ⟨_, _, same, listed⟩ := ih
    cases same
    obtain ⟨repeated, below⟩ := mem_of_base draws listed step
    exact ⟨_, _, rfl, unmarked below fresh⟩

theorem nodup_firsts (distinct : after.Nodup) :
    ((drawn.filter fun node => !node.repeated).map Node.id).Nodup := by
  rwa [draws.after_eq, List.nil_append] at distinct

theorem unshared_of_truthful (distinct : after.Nodup) (truthful : Truthful drawn) :
    db.Unshared id where
  unique base path path' way way' := by
    obtain ⟨_, _, same, listed⟩ := mem_of_way draws truthful way
    obtain ⟨_, _, same', listed'⟩ := mem_of_way draws truthful way'
    cases same
    cases same'
    have one := List.inj_on_of_nodup_map (nodup_firsts draws distinct)
      (List.mem_filter.mpr ⟨listed, rfl⟩) (List.mem_filter.mpr ⟨listed', rfl⟩) rfl
    exact congrArg Node.path one
  distinct child path entity way known := by
    obtain ⟨_, _, same, listed⟩ := mem_of_way draws truthful way
    cases same
    rw [← draws.filter_path_of_first listed rfl known, List.filter_map]
    have unmarked : ∀ node ∈ (drawn.filter (·.path = child :: path)).filter
        ((fun base => decide (base ∉ child :: path)) ∘ Node.id), (!node.repeated) = true := by
      intro node kept
      obtain ⟨inside, fresh⟩ := List.mem_filter.mp kept
      obtain ⟨member, below⟩ := List.mem_filter.mp inside
      rw [Bool.not_eq_true', Bool.eq_false_iff, ne_eq, truthful node member,
        of_decide_eq_true below]
      exact of_decide_eq_true fresh
    rw [← List.filter_eq_self.mpr unmarked]
    refine (nodup_firsts draws distinct).sublist ((List.Sublist.filter _ ?_).map _)
    exact List.filter_sublist.trans List.filter_sublist

/-- Where no class can be reached in two ways, one that is not on a path has one line right
below it. -/
theorem eq_of_unshared (unshared : db.Unshared id) {other : Node} (member : node ∈ drawn)
    (listed : other ∈ drawn) (same : other.id = node.id) (beside : other.path = node.path)
    (fresh : node.id ∉ node.path) : other = node := by
  have way := draws.way member fresh
  cases above : node.path with
  | nil =>
    have row : ((drawn.filter (·.path = [])).map Node.id).Nodup := by
      rw [draws.filter_path]
      exact List.nodup_singleton id
    exact List.inj_on_of_nodup_map row (List.mem_filter.mpr ⟨listed, by simp [beside, above]⟩)
      (List.mem_filter.mpr ⟨member, by simp [above]⟩) same
  | cons child upper =>
    have parent := draws.mem_of_path member upper (by simpa using above)
    rw [List.append_nil] at parent
    rw [above] at way fresh
    cases way with
    | step upward step _ =>
      obtain ⟨entity, known, -, -⟩ := step
      have row := unshared.distinct child upper entity upward known
      rw [← draws.filter_path_of_first parent rfl known, List.filter_map] at row
      have kept : ∀ line ∈ drawn, line.path = child :: upper → line.id = node.id →
          line ∈ (drawn.filter (·.path = child :: upper)).filter
            ((fun base => decide (base ∉ child :: upper)) ∘ Node.id) := by
        intro line inside below named
        simp only [List.mem_filter, Function.comp_apply, decide_eq_true_eq, below, named]
        exact ⟨⟨inside, trivial⟩, fresh⟩
      exact List.inj_on_of_nodup_map row (kept other listed (beside.trans above) same)
        (kept node member above rfl) same

theorem truthful_of_unshared (unshared : db.Unshared id) : Truthful drawn := by
  intro node member
  constructor
  · intro marked
    by_contra fresh
    obtain ⟨path, listed⟩ := exists_first draws member
    have way := draws.way member fresh
    have way' := draws.way listed (draws.not_mem_path nofun listed rfl)
    have beside : path = node.path := unshared.unique _ _ _ way' way
    have same := eq_of_unshared draws unshared member listed rfl beside fresh
    rw [← same] at marked
    cases marked
  · intro own
    cases marked : node.repeated with
    | true => rfl
    | false => exact absurd own (draws.not_mem_path nofun member marked)

end Tree

/-- Along a way, a class inherits from all that are above it. -/
theorem transGen_of_mem_path (chain : (child :: path).IsChain fun base id => db.Inherits id base)
    (above : base ∈ path) : TransGen db.Inherits base child := by
  have far : (child :: path).Pairwise fun base id => TransGen db.Inherits id base := by
    have : IsTrans ClassId fun base id => TransGen db.Inherits id base :=
      ⟨fun _ _ _ near far => far.trans near⟩
    exact (chain.imp fun _ _ => .single).pairwise
  exact List.rel_of_pairwise_cons far above

/-- In the tree of a class every line whose class is its own ancestor is marked. Marks stand
only there exactly if no class can be reached in two ways; and so, where no class inherits from
itself, no line is marked exactly under the same condition. -/
theorem marks_cycles_iff (known : db.classAt? id = some entity) :
    (∀ input, Asks db input id → eval db input = .text (trimmedEnd
      (lines ((nodes (tree db id)).map fun node => branchLine db node.branch)))) ∧
    (∀ node ∈ nodes (tree db id), node.id ∈ node.path → node.repeated = true) ∧
      ((∀ node ∈ nodes (tree db id), node.repeated = true ↔ node.id ∈ node.path) ↔
        db.Unshared id) ∧
      (db.Acyclic →
        ((∀ node ∈ nodes (tree db id), node.repeated = false) ↔ db.Unshared id)) := by
  obtain ⟨draws, whole⟩ := exists_draws_tree known
  have distinct := (db.walks_lineage id).nodup List.nodup_nil
  have printed : ∀ input, Asks db input id → eval db input = .text (trimmedEnd
      (lines ((nodes (tree db id)).map fun node => branchLine db node.branch))) := by
    intro input asked
    rw [eval_of_asks asked, bases, congrArg (List.map (branchLine db)) whole, List.map_map]
    rfl
  have own : ∀ node ∈ nodes (tree db id), node.id ∈ node.path → node.repeated = true := by
    intro node member above
    cases marked : node.repeated with
    | true => rfl
    | false => exact absurd above (draws.not_mem_path nofun member marked)
  have truthful : Truthful (nodes (tree db id)) ↔ db.Unshared id :=
    ⟨unshared_of_truthful draws distinct, truthful_of_unshared draws⟩
  refine ⟨printed, own, truthful, fun acyclic => Iff.trans ?_ truthful⟩
  have none : ∀ node ∈ nodes (tree db id), node.id ∉ node.path := fun node member above =>
    acyclic node.id (transGen_of_mem_path (draws.isChain member) above)
  constructor
  · intro clear node member
    exact iff_of_false (by simp [clear node member]) (none node member)
  · intro marks node member
    rw [Bool.eq_false_iff, ne_eq, marks node member]
    exact none node member

/-- Of classes that inherit from each other and from themselves, all marks are true. -/
theorem marks_cycles_iff_mutual :
    Mutual.database.classAt? 0 = some Mutual.a ∧
      nodes (tree Mutual.database 0) =
        [⟨[], 0, false⟩, ⟨[0], 0, true⟩, ⟨[0], 1, false⟩, ⟨[1, 0], 0, true⟩] ∧
      Mutual.database.Unshared 0 := by
  have known : Mutual.database.classAt? 0 = some Mutual.a := rfl
  obtain ⟨-, -, truthful, -⟩ := marks_cycles_iff known
  have drawn := ((draws_iff known).mp draws_mutual).1
  refine ⟨known, drawn.symm, truthful.mp ?_⟩
  rw [← drawn]
  decide

theorem draws_diamond : Diamond.database.Draws [] [] [3]
    [⟨[], 3, false⟩, ⟨[3], 1, false⟩, ⟨[1, 3], 0, false⟩, ⟨[3], 2, false⟩, ⟨[2, 3], 0, true⟩]
    [3, 1, 0, 2] := by
  have top : Diamond.database.classAt? 0 = some Diamond.top := rfl
  have left : Diamond.database.classAt? 1 = some Diamond.left := rfl
  have right : Diamond.database.classAt? 2 = some Diamond.right := rfl
  have bottom : Diamond.database.classAt? 3 = some Diamond.bottom := rfl
  have underLeft : Diamond.database.Draws [1, 3] [3, 1] [0] [⟨[1, 3], 0, false⟩] [3, 1, 0] :=
    .entered (by decide) top .done .done
  have underRight : Diamond.database.Draws [2, 3] [3, 1, 0, 2] [0] [⟨[2, 3], 0, true⟩]
      [3, 1, 0, 2] := .again (by decide) top .done
  have fresh : (2 : ClassId) ∉ [3, 1, 0] := by decide
  have second : Diamond.database.Draws [3] [3, 1, 0] [2] [⟨[3], 2, false⟩, ⟨[2, 3], 0, true⟩]
      [3, 1, 0, 2] := .entered fresh right underRight .done
  have new : (1 : ClassId) ∉ [3] := by decide
  have below : Diamond.database.Draws [3] [3] [1, 2]
      [⟨[3], 1, false⟩, ⟨[1, 3], 0, false⟩, ⟨[3], 2, false⟩, ⟨[2, 3], 0, true⟩] [3, 1, 0, 2] :=
    .entered new left underLeft second
  exact .entered List.not_mem_nil bottom below .done

theorem asks_diamond : Asks Diamond.database "bases bottom" 3 := by
  have place : Diamond.database.classes.entryAt? 3 = some ("bottom", Diamond.bottom) := rfl
  have folded : fold "bottom" = "bottom" := by decide
  refine ⟨"bases", "bottom", [], by decide, by decide, ?_, ?_⟩
  · rw [idOf?, folded, OrderedMap.position?_of_entryAt? place]
    rfl
  · rw [find?, folded, OrderedMap.get?_of_toList (OrderedMap.entryAt?_eq _ _ ▸ place)]
    rfl

/-- A base that two bases share is marked, though nothing inherits from itself. -/
theorem marks_shared_base : Diamond.database.Acyclic ∧
    eval Diamond.database "bases bottom" =
      .text "Bottom\n  Left\n    Top\n  Right\n    Top (cycle)" ∧
    ¬ ∀ node ∈ nodes (tree Diamond.database 3), node.repeated = true ↔ node.id ∈ node.path := by
  have known : Diamond.database.classAt? 3 = some Diamond.bottom := rfl
  have drawn := ((draws_iff known).mp draws_diamond).1
  have whole := (exists_draws_tree known).2
  refine ⟨Diamond.acyclic, ?_, ?_⟩
  · rw [eval_of_asks asks_diamond, bases, whole, ← drawn]
    decide
  · rw [← drawn]
    decide

end EntitySchema.Database
