import EntitySchema.Compact.Encoding
import EntitySchema.Proofs.Compact.Dictionary

/-! Layouts in a row, and decoders that recall what was laid out: the fields of a layout
that met no problem are read back as a value, given the string table they refer to. -/
namespace EntitySchema.Compact

namespace Layout

variable {first second third : Layout} {layouts : List Layout}

theorem problem_append :
    (first ++ second).problem = none ↔ first.problem = none ∧ second.problem = none := by
  change (append first second).problem = none ↔ _
  rw [append]
  split
  · rename_i cause found
    simp [found]
  · rename_i clear
    simp [clear]

theorem fields_append (clear : first.problem = none) :
    (first ++ second).fields = first.fields ++ second.fields := by
  change (append first second).fields = _
  simp only [append, clear]

theorem append_assoc (first second third : Layout) :
    first ++ second ++ third = first ++ (second ++ third) := by
  change append (append first second) third = append first (append second third)
  obtain ⟨fields, problem⟩ := first
  cases problem with
  | some cause => rfl
  | none =>
    obtain ⟨more, problem⟩ := second
    cases problem with
    | some cause => rfl
    | none => simp [append]

theorem append_nil (layout : Layout) : layout ++ ofFields [] = layout := by
  change append layout (ofFields []) = layout
  obtain ⟨fields, problem⟩ := layout
  cases problem with
  | some cause => rfl
  | none => simp [append, ofFields]

theorem ofFields_cons (field : Field) (fields : List Field) :
    ofFields (field :: fields) = ofFields [field] ++ ofFields fields := rfl

theorem concatFrom_eq (fields : List Field) (layouts : List Layout) :
    concatFrom fields layouts = ofFields fields.reverse ++ concat layouts := by
  induction layouts generalizing fields with
  | nil => exact (append_nil _).symm
  | cons first rest ih =>
    obtain ⟨new, problem⟩ := first
    change _ = append (ofFields fields.reverse) (concatFrom [] (⟨new, problem⟩ :: rest))
    cases problem with
    | some cause => simp [concatFrom, append, ofFields]
    | none =>
      simp only [concatFrom, List.append_nil]
      rw [ih, ih]
      simp only [List.reverse_append, List.reverse_reverse]
      change append _ _ = append _ (append _ _)
      simp [append, ofFields]

theorem concat_nil : concat [] = ofFields [] := rfl

theorem concat_cons (first : Layout) (rest : List Layout) :
    concat (first :: rest) = first ++ concat rest := by
  obtain ⟨fields, problem⟩ := first
  cases problem with
  | some cause =>
    change concatFrom [] _ = append _ _
    simp [concatFrom, append]
  | none =>
    change concatFrom [] _ = _
    simp only [concatFrom, List.append_nil]
    rw [concatFrom_eq, List.reverse_reverse]
    rfl

theorem concat_append (front back : List Layout) :
    concat (front ++ back) = concat front ++ concat back := by
  induction front with
  | nil => rfl
  | cons first rest ih => rw [List.cons_append, concat_cons, concat_cons, ih, append_assoc]

theorem problem_concat :
    (concat layouts).problem = none ↔ ∀ layout ∈ layouts, layout.problem = none := by
  induction layouts with
  | nil => simp [concat_nil, ofFields]
  | cons first rest ih => rw [concat_cons, problem_append, ih, List.forall_mem_cons]

theorem count8_problem {what : Counted} {count : Nat} {classname : String} :
    (count8 what count classname).problem = none ↔ count ≤ 255 := by
  rw [count8]
  split <;> rename_i bound <;> simp [bound, byte, ofFields, tooMany, stop]

theorem count16_problem {what : Counted} {count : Nat} {classname : String} :
    (count16 what count classname).problem = none ↔ count ≤ 65535 := by
  rw [count16]
  split <;> rename_i bound <;> simp [bound, ofFields, tooMany, stop]

end Layout

theorem textsOf_append (front back : List Field) :
    textsOf (front ++ back) = textsOf front ++ textsOf back := List.filterMap_append

variable {α β : Type} {dictionary : Dictionary} {decoder : Decoder α} {front back : Layout}
  {value : α}

/-- The decoder reads the layout back as the value, unless the layout has met a problem
or uses strings that the dictionary lacks. -/
def Recalls (dictionary : Dictionary) (decoder : Decoder α) (layout : Layout) (value : α) : Prop :=
  layout.problem = none →
    (∀ text ∈ textsOf layout.fields, text ∈ dictionary.strings.keys) →
      Reads decoder (layout.fields.flatMap (fieldBytes dictionary)) value

namespace Recalls

theorem pure (value : α) : Recalls dictionary (pure value) (.ofFields []) value :=
  fun _ _ => Reads.pure value

theorem bind {f : α → Decoder β} {result : β} (first : Recalls dictionary decoder front value)
    (second : front.problem = none → Recalls dictionary (f value) back result) :
    Recalls dictionary (decoder >>= f) (front ++ back) result := by
  intro clear known
  obtain ⟨clearFront, clearBack⟩ := Layout.problem_append.mp clear
  rw [Layout.fields_append clearFront] at known ⊢
  rw [textsOf_append] at known
  rw [List.flatMap_append]
  refine Reads.bind (first clearFront fun text member => ?_)
    (second clearFront clearBack fun text member => ?_)
  · exact known text (List.mem_append_left _ member)
  · exact known text (List.mem_append_right _ member)

/-- A first reading that takes no bytes. -/
theorem silent {f : α → Decoder β} {result : β}
    (first : Recalls dictionary decoder (.ofFields []) value)
    (second : Recalls dictionary (f value) back result) :
    Recalls dictionary (decoder >>= f) back result :=
  first.bind fun _ => second

/-- The last reading of a row, from whose value the result is made. -/
theorem last {f : α → Decoder β} {result : β} (only : Recalls dictionary decoder front value)
    (done : front.problem = none → Recalls dictionary (f value) (.ofFields []) result) :
    Recalls dictionary (decoder >>= f) front result := by
  have row := only.bind done
  rwa [Layout.append_nil] at row

theorem byte (n : UInt8) : Recalls dictionary Reader.u8 (.ofFields [.byte n]) n :=
  fun _ _ => reads_u8 n

theorem word (n : UInt16) : Recalls dictionary Reader.u16 (.ofFields [.word n]) n := by
  intro _ _
  have read := reads_u16 n.toNat
  rw [show n.toNat.toUInt16 = n by simp] at read
  exact read

theorem text (small : dictionary.size ≤ maxStrings) (text : String) :
    Recalls dictionary dictionary.table.readString (.ofFields [.text text]) text := by
  intro _ known
  have read := reads_readString small (known text List.mem_cons_self)
  rwa [← List.append_nil (bigEndian _ _)] at read

theorem count8 (what : Counted) (count : Nat) (classname : String) :
    Recalls dictionary Reader.u8 (.count8 what count classname) count.toUInt8 := by
  intro clear
  rw [Layout.count8, if_pos (Layout.count8_problem.mp clear)]
  exact byte _ rfl

theorem count16 (what : Counted) (count : Nat) (classname : String) :
    Recalls dictionary Reader.u16 (.count16 what count classname) count.toUInt16 := by
  intro clear
  rw [Layout.count16, if_pos (Layout.count16_problem.mp clear)]
  exact word _ rfl

/-- As many items as were laid out are read back one after the other. -/
theorem many {γ : Type} {layoutOf : γ → Layout} {result : γ → α} {items : List γ} {count : Nat}
    (counted : count = items.length)
    (each : ∀ item ∈ items, Recalls dictionary decoder (layoutOf item) (result item)) :
    Recalls dictionary (readMany decoder [] count) (.concat (items.map layoutOf))
      (items.map result) := by
  subst counted
  intro clear known
  have fields : (Layout.concat (items.map layoutOf)).fields =
      items.flatMap fun item => (layoutOf item).fields := by
    clear each known
    induction items with
    | nil => rfl
    | cons item items ih =>
      rw [List.map_cons, Layout.concat_cons] at clear ⊢
      obtain ⟨clearFirst, clearRest⟩ := Layout.problem_append.mp clear
      rw [Layout.fields_append clearFirst, ih clearRest, List.flatMap_cons]
  rw [fields] at known ⊢
  rw [List.flatMap_assoc]
  refine reads_readMany fun item member => each item member ?_ fun text used => ?_
  · exact Layout.problem_concat.mp clear _ (List.mem_map_of_mem member)
  · apply known text
    simp only [textsOf, List.mem_filterMap, List.mem_flatMap] at used ⊢
    obtain ⟨field, inside, same⟩ := used
    exact ⟨field, ⟨item, member, inside⟩, same⟩

end Recalls
end EntitySchema.Compact
