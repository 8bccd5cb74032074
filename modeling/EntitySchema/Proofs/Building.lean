import EntitySchema.Proofs.WellFormed

/-! Classes and databases that are put together part by part: what a row of additions
comes to, and which properties of a class every addition keeps. -/
namespace EntitySchema

section Repeats

variable {α : Type} [BEq α] [LawfulBEq α] {items : List α} {item : α}

theorem eraseDups_concat_of_mem (known : item ∈ items) :
    (items ++ [item]).eraseDups = items.eraseDups := by
  rw [List.eraseDups_append]
  simp [List.removeAll, known]

theorem eraseDups_concat_of_not_mem (new : item ∉ items) :
    (items ++ [item]).eraseDups = items.eraseDups ++ [item] := by
  rw [List.eraseDups_append]
  simp [List.removeAll, new, List.eraseDups_cons]

end Repeats

namespace EntityClass

variable {entity : EntityClass}

/-- The form in which a name waits to be linked. -/
def baseNamed (name : String) : Base := .named (fold (trimmed name))

/-- Bases under new and distinct names are added one behind the other. -/
theorem foldl_addBase {names : List String}
    (distinct : (entity.bases ++ names.map baseNamed).Nodup) :
    names.foldl addBase entity = { entity with bases := entity.bases ++ names.map baseNamed } := by
  induction names generalizing entity with
  | nil => simp
  | cons name names ih =>
    have fresh : Base.named (fold (trimmed name)) ∉ entity.bases := by
      rw [List.map_cons, List.nodup_append] at distinct
      intro known
      exact distinct.2.2 _ known _ List.mem_cons_self rfl
    have added : entity.addBase name =
        { entity with bases := entity.bases ++ [baseNamed name] } := if_neg fresh
    rw [List.foldl_cons, added, ih]
    · simp
    · simpa using distinct

/-- Whatever the names, each base added is new and one of them. -/
theorem exists_foldl_addBase (names : List String) (entity : EntityClass)
    (distinct : entity.bases.Nodup) :
    ∃ bases, names.foldl addBase entity = { entity with bases } ∧ bases.Nodup ∧
      bases.length ≤ entity.bases.length + names.length ∧
      ∀ base ∈ bases, base ∈ entity.bases ∨ ∃ name ∈ names, base = baseNamed name := by
  induction names generalizing entity with
  | nil => exact ⟨entity.bases, rfl, distinct, Nat.le_refl _, fun base member => Or.inl member⟩
  | cons name names ih =>
    by_cases known : Base.named (fold (trimmed name)) ∈ entity.bases
    · obtain ⟨bases, made, nodup, few, origin⟩ := ih entity distinct
      refine ⟨bases, ?_, nodup, by rw [List.length_cons]; omega, fun base member => ?_⟩
      · rw [List.foldl_cons, addBase, if_pos known, made]
      · rcases origin base member with old | ⟨other, inside, rfl⟩
        · exact Or.inl old
        · exact Or.inr ⟨other, List.mem_cons_of_mem _ inside, rfl⟩
    · have added : (entity.bases ++ [baseNamed name]).Nodup :=
        List.nodup_append.mpr ⟨distinct, List.nodup_singleton _, fun old inside new single same =>
          known (by rw [List.mem_singleton] at single; rwa [same, single] at inside)⟩
      obtain ⟨bases, made, nodup, few, origin⟩ :=
        ih { entity with bases := entity.bases ++ [baseNamed name] } added
      refine ⟨bases, ?_, nodup, ?_, fun base member => ?_⟩
      · rw [List.foldl_cons, addBase, if_neg known]
        exact made
      · simp only [List.length_append, List.length_cons, List.length_nil] at few ⊢
        omega
      · rcases origin base member with old | ⟨other, inside, rfl⟩
        · rcases List.mem_append.mp old with old | new
          · exact Or.inl old
          · exact Or.inr ⟨name, List.mem_cons_self, List.mem_singleton.mp new⟩
        · exact Or.inr ⟨other, List.mem_cons_of_mem _ inside, rfl⟩

/-- Of bases that are named more than once, the first mention counts. -/
theorem foldl_addBase_eraseDups (entity : EntityClass) (done : List Base) (names : List String) :
    names.foldl addBase { entity with bases := done.eraseDups } =
      { entity with bases := (done ++ names.map baseNamed).eraseDups } := by
  induction names generalizing done with
  | nil => simp
  | cons name names ih =>
    have added : addBase { entity with bases := done.eraseDups } name =
        { entity with bases := (done ++ [baseNamed name]).eraseDups } := by
      by_cases known : baseNamed name ∈ done
      · rw [eraseDups_concat_of_mem known]
        exact if_pos (List.mem_eraseDups.mpr known)
      · rw [eraseDups_concat_of_not_mem known]
        exact if_neg (mt List.mem_eraseDups.mp known)
    rw [List.foldl_cons, added, ih, List.map_cons, List.append_assoc, List.singleton_append]

theorem foldl_addKeyValue (keyValues : List KeyValue) (entity : EntityClass) :
    keyValues.foldl addKeyValue entity =
      { entity with
        keyValues := keyValues.foldl (fun map keyValue => map.insert (fold keyValue.name) keyValue)
          entity.keyValues } := by
  induction keyValues generalizing entity with
  | nil => rfl
  | cons keyValue keyValues ih => exact ih _

theorem foldl_addSignal_input (signals : List Signal) (entity : EntityClass) :
    signals.foldl (addSignal · .input) entity =
      { entity with
        inputs := signals.foldl (fun map signal => map.insert (fold signal.name) signal)
          entity.inputs } := by
  induction signals generalizing entity with
  | nil => rfl
  | cons signal signals ih => exact ih _

theorem foldl_addSignal_output (signals : List Signal) (entity : EntityClass) :
    signals.foldl (addSignal · .output) entity =
      { entity with
        outputs := signals.foldl (fun map signal => map.insert (fold signal.name) signal)
          entity.outputs } := by
  induction signals generalizing entity with
  | nil => rfl
  | cons signal signals ih => exact ih _

end EntityClass

theorem Database.foldl_define (entities : List EntityClass) (db : Database) :
    entities.foldl define db =
      { db with
        classes := entities.foldl (fun map entity => map.insert (fold entity.name) entity)
          db.classes } := by
  induction entities generalizing db with
  | nil => rfl
  | cons entity entities ih => exact ih _

end EntitySchema
