import Mathlib.Data.List.Forall2

/-! What is true of every result of a computation that may fail, and rows of such
computations that all succeed. -/
namespace EntitySchema

variable {ε σ α β : Type} {x : EStateM ε σ α} {P Q : α → Prop} {R : β → Prop}

/-- A computation of two steps that succeeds has a first step that succeeds. -/
theorem exists_of_bind {f : α → EStateM ε σ β} {before after : σ} {result : β}
    (ran : (x >>= f) before = .ok result after) :
    ∃ value middle, x before = .ok value middle ∧ f value middle = .ok result after := by
  change EStateM.bind x f before = _ at ran
  unfold EStateM.bind at ran
  cases started : x before with
  | ok value middle =>
    rw [started] at ran
    exact ⟨value, middle, rfl, ran⟩
  | error error middle =>
    rw [started] at ran
    cases ran

/-- Every result of a computation has a property, whatever state it starts from. -/
def Yields (x : EStateM ε σ α) (P : α → Prop) : Prop :=
  ∀ before value after, x before = .ok value after → P value

namespace Yields

theorem pure {value : α} (holds : P value) : Yields (pure value : EStateM ε σ α) P := by
  intro before result after ran
  cases ran
  exact holds

theorem throw (error : ε) : Yields (throw error : EStateM ε σ α) P := by
  intro before result after ran
  cases ran

theorem trivial : Yields x fun _ => True := fun _ _ _ _ => True.intro

theorem bind {f : α → EStateM ε σ β} (first : Yields x P)
    (second : ∀ value, P value → Yields (f value) R) : Yields (x >>= f) R := by
  intro before result after ran
  obtain ⟨value, middle, started, went⟩ := exists_of_bind ran
  exact second value (first before value middle started) middle result after went

theorem ite {condition : Prop} [Decidable condition] {y : EStateM ε σ α}
    (holds : condition → Yields x P) (fails : ¬condition → Yields y P) :
    Yields (if condition then x else y) P := by
  split
  · exact holds ‹_›
  · exact fails ‹_›

end Yields

/-- Whatever stands in a row of results was made from something in the row before. -/
theorem exists_of_forall₂ {R : α → β → Prop} {items : List α} {results : List β}
    (rows : List.Forall₂ R items results) {result : β} (member : result ∈ results) :
    ∃ item ∈ items, R item result := by
  induction rows with
  | nil => cases member
  | cons first others ih =>
    rcases List.mem_cons.mp member with rfl | later
    · exact ⟨_, List.mem_cons_self, first⟩
    · obtain ⟨item, inside, made⟩ := ih later
      exact ⟨item, List.mem_cons_of_mem _ inside, made⟩

theorem exists_getElem?_of_forall₂ {R : α → β → Prop} {items : List α} {results : List β}
    (rows : List.Forall₂ R items results) {i : Nat} {result : β}
    (found : results[i]? = some result) : ∃ item, items[i]? = some item ∧ R item result := by
  induction rows generalizing i with
  | nil => cases found
  | @cons item _ _ _ first _ ih =>
    cases i with
    | zero =>
      cases found
      exact ⟨item, rfl, first⟩
    | succ i => exact ih found

/-- What is said of every result is said of every item, if it is of each pair. -/
theorem forall_mem_iff_of_forall₂ {R : α → β → Prop} {items : List α} {results : List β}
    (rows : List.Forall₂ R items results) {P : α → Prop} {Q : β → Prop}
    (each : ∀ item result, R item result → (P item ↔ Q result)) :
    (∀ item ∈ items, P item) ↔ ∀ result ∈ results, Q result := by
  induction rows with
  | nil => simp
  | cons first _ ih => rw [List.forall_mem_cons, List.forall_mem_cons, each _ _ first, ih]

/-- What follows a computation runs from where that left off. -/
theorem bind_of_ran {f : α → EStateM ε σ β} {before after : σ} {value : α}
    (ran : x before = .ok value after) : (x >>= f) before = f value after := by
  change EStateM.bind x f before = _
  unfold EStateM.bind
  rw [ran]

/-- What follows goes the same way after first steps of the same outcome. -/
theorem bind_of_same {y : EStateM ε σ α} {f : α → EStateM ε σ β} {before other : σ}
    (same : x before = y other) : (x >>= f) before = (y >>= f) other := by
  change EStateM.bind x f before = EStateM.bind y f other
  unfold EStateM.bind
  rw [same]

/-- A computation of two steps fails if the first one does. -/
theorem bind_of_failed {f : α → EStateM ε σ β} {before after : σ} {error : ε}
    (failed : x before = .error error after) : (x >>= f) before = .error error after := by
  change EStateM.bind x f before = _
  unfold EStateM.bind
  rw [failed]

theorem bind_eq_ok_iff {x : Except ε α} {f : α → Except ε β} {result : β} :
    x >>= f = .ok result ↔ ∃ value, x = .ok value ∧ f value = .ok result := by
  cases x with
  | error problem => simp [Bind.bind, Except.bind]
  | ok value => simp [Bind.bind, Except.bind]

theorem mapM_eq_ok_iff {f : α → Except ε β} {items : List α} {results : List β} :
    items.mapM f = .ok results ↔
      List.Forall₂ (fun item result => f item = .ok result) items results := by
  induction items generalizing results with
  | nil => simp [Pure.pure, Except.pure, eq_comm]
  | cons item items ih =>
    rw [List.mapM_cons, List.forall₂_cons_left_iff, bind_eq_ok_iff]
    simp only [bind_eq_ok_iff, Pure.pure, Except.pure, Except.ok.injEq, ih]
    constructor
    · rintro ⟨result, first, rest, others, rfl⟩
      exact ⟨result, rest, first, others, rfl⟩
    · rintro ⟨result, rest, first, others, rfl⟩
      exact ⟨result, first, rest, others, rfl⟩

theorem mapM_eq_some_iff {f : α → Option β} {items : List α} {results : List β} :
    items.mapM f = some results ↔
      List.Forall₂ (fun item result => f item = some result) items results := by
  induction items generalizing results with
  | nil => simp [eq_comm]
  | cons item items ih =>
    rw [List.mapM_cons, List.forall₂_cons_left_iff]
    simp only [Option.bind_eq_bind, Option.bind_eq_some_iff, Option.pure_def, Option.some.injEq, ih]
    constructor
    · rintro ⟨result, first, rest, others, rfl⟩
      exact ⟨result, rest, first, others, rfl⟩
    · rintro ⟨result, rest, first, others, rfl⟩
      exact ⟨result, first, rest, others, rfl⟩

/-- A row can be made of what there is for each of its items. -/
theorem exists_forall₂ {R : α → β → Prop} {items : List α}
    (each : ∀ item ∈ items, ∃ result, R item result) :
    ∃ results, List.Forall₂ R items results := by
  induction items with
  | nil => exact ⟨[], .nil⟩
  | cons item items ih =>
    obtain ⟨result, first⟩ := each item List.mem_cons_self
    obtain ⟨results, others⟩ := ih fun other member => each other (List.mem_cons_of_mem _ member)
    exact ⟨result :: results, .cons first others⟩

theorem bind_eq_error_iff {x : Except ε α} {f : α → Except ε β} {error : ε} :
    x >>= f = .error error ↔
      x = .error error ∨ ∃ value, x = .ok value ∧ f value = .error error := by
  cases x with
  | error problem => simp [Bind.bind, Except.bind]
  | ok value => simp [Bind.bind, Except.bind]

/-- A row fails as the first of its members that does. -/
theorem mapM_eq_error_iff {f : α → Except ε β} {items : List α} {error : ε} :
    items.mapM f = .error error ↔ ∃ front item back, items = front ++ item :: back ∧
      (∀ earlier ∈ front, ∃ result, f earlier = .ok result) ∧ f item = .error error := by
  induction items with
  | nil => simp [Pure.pure, Except.pure]
  | cons item items ih =>
    rw [List.mapM_cons, bind_eq_error_iff]
    constructor
    · rintro (first | ⟨result, succeeded, later⟩)
      · exact ⟨[], item, items, rfl, nofun, first⟩
      · rcases bind_eq_error_iff.mp later with others | ⟨results, -, none⟩
        · obtain ⟨front, failing, back, rfl, before, failed⟩ := ih.mp others
          exact ⟨item :: front, failing, back, rfl,
            List.forall_mem_cons.mpr ⟨⟨result, succeeded⟩, before⟩, failed⟩
        · cases none
    · rintro ⟨front, failing, back, same, before, failed⟩
      cases front with
      | nil =>
        cases same
        exact Or.inl failed
      | cons first front =>
        cases same
        obtain ⟨⟨result, succeeded⟩, before⟩ := List.forall_mem_cons.mp before
        have others := ih.mpr ⟨front, failing, back, rfl, before, failed⟩
        exact Or.inr ⟨result, succeeded, bind_eq_error_iff.mpr (Or.inl others)⟩

end EntitySchema
