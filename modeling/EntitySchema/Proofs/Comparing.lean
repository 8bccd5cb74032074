import EntitySchema.Proofs.Folding

/-! Comparing names letter by letter against comparing their folded forms. The two differ
only on capital sigmas at the end of words, which folding gives their final form. As soon
as one comparison holds, the other one does exactly if these stand at the same places. -/
namespace EntitySchema

namespace Text

/-- A letter of a mapped text, taken by itself, and whether it comes from a capital sigma at
the end of a word. -/
@[ext] structure Letter where
  char : Char
  final : Bool

/-- How a letter is written between its neighbours. -/
def Letter.written (letter : Letter) : Char := if letter.final then 'ς' else letter.char

/-- Whether a word ends with a character between two texts, of which the one before it is
reversed. -/
def endsWord (before after : List Char) : Bool := meetsCased before && !meetsCased after

/-- The letters of a text, of which `before` has been mapped already, reversed. -/
def letters (before : List Char) : List Char → List Letter
  | [] => []
  | c :: after =>
    (lowercaseChar c).map (⟨·, c == 'Σ' && endsWord before after⟩) ++ letters (c :: before) after

variable {before text : List Char} {letter : Letter}

theorem lowercaseChar_sigma : lowercaseChar 'Σ' = ['σ'] := by decide

theorem chars_letters (before text : List Char) :
    (letters before text).map Letter.char = text.flatMap lowercaseChar := by
  induction text generalizing before with
  | nil => rfl
  | cons c after ih =>
    rw [letters, List.map_append, ih, List.map_map, List.flatMap_cons]
    congr 1
    exact List.map_id _

theorem written_letters (before text : List Char) :
    (letters before text).map Letter.written = lowercaseFrom before [] text := by
  induction text generalizing before with
  | nil => rfl
  | cons c after ih =>
    rw [letters, List.map_append, ih, List.map_map, lowercaseFrom_cons, lowercaseBetween]
    congr 1
    by_cases sigma : c = 'Σ'
    · subst sigma
      rw [lowercaseChar_sigma, if_pos rfl]
      cases ends : endsWord before after <;> rw [endsWord] at ends <;> simp [Letter.written, ends]
    · rw [if_neg sigma]
      simp [Function.comp_def, Letter.written, sigma]

/-- Only small sigmas come from capital ones. -/
def Letter.Sound (letter : Letter) : Prop := letter.final = true → letter.char = 'σ'

theorem sound_of_mem_letters (member : letter ∈ letters before text) : letter.Sound := by
  intro final
  induction text generalizing before with
  | nil => cases member
  | cons c after ih =>
    rcases List.mem_append.mp member with here | later
    · obtain ⟨d, mapped, rfl⟩ := List.mem_map.mp here
      obtain ⟨sigma, -⟩ : c = 'Σ' ∧ endsWord before after = true := by simpa using final
      rw [sigma, lowercaseChar_sigma] at mapped
      exact List.mem_singleton.mp mapped
    · exact ih later

/-- The first character of a text gives a final letter if it is a capital sigma that ends a
word there. -/
theorem any_final_head {c : Char} {after : List Char} {i : Nat}
    (here : i < (lowercaseChar c).length) :
    (letters before (c :: after))[i]?.any Letter.final = true ↔
      c = 'Σ' ∧ endsWord before after = true := by
  rw [letters, List.getElem?_append_left (by simpa using here), List.getElem?_map,
    List.getElem?_eq_getElem here]
  simp

theorem getElem?_letters_tail {c : Char} {after : List Char} (i : Nat) :
    (letters before (c :: after))[(lowercaseChar c).length + i]? =
      (letters (c :: before) after)[i]? := by
  rw [letters, List.getElem?_append_right (by simp), List.length_map, Nat.add_sub_cancel_left]

/-- Where letters from a capital sigma at the end of a word stand. -/
theorem any_final_iff {before text : List Char} {i : Nat} :
    (letters before text)[i]?.any Letter.final = true ↔
      ∃ front after, text = front ++ 'Σ' :: after ∧
        endsWord (front.reverse ++ before) after = true ∧
        i = (front.flatMap lowercaseChar).length := by
  induction text generalizing before i with
  | nil => simp [letters]
  | cons c after ih =>
    rcases Nat.lt_or_ge i (lowercaseChar c).length with here | beyond
    · rw [any_final_head here]
      constructor
      · rintro ⟨rfl, ends⟩
        rw [lowercaseChar_sigma, List.length_singleton, Nat.lt_one_iff] at here
        exact ⟨[], after, rfl, ends, here⟩
      · rintro ⟨_ | ⟨d, front⟩, rest, split, ends, place⟩ <;> cases split
        · exact ⟨rfl, ends⟩
        · rw [List.flatMap_cons, List.length_append] at place
          omega
    · obtain ⟨i, rfl⟩ := Nat.exists_eq_add_of_le beyond
      rw [getElem?_letters_tail, ih]
      constructor
      · rintro ⟨front, rest, rfl, ends, rfl⟩
        exact ⟨c :: front, rest, rfl, by simpa using ends, by simp⟩
      · rintro ⟨_ | ⟨d, front⟩, rest, split, ends, place⟩ <;> cases split
        · rw [lowercaseChar_sigma, List.flatMap_nil, List.length_singleton, List.length_nil]
            at place
          omega
        · rw [List.flatMap_cons, List.length_append, Nat.add_left_cancel_iff] at place
          exact ⟨front, rest, rfl, by simpa using ends, place⟩

namespace Letter

variable {left right : Letter}

/-! Of its character, its written form and whether it is final, any two determine a letter. -/

theorem final_eq (leftSound : left.Sound) (rightSound : right.Sound)
    (char : left.char = right.char) (written : left.written = right.written) :
    left.final = right.final := by
  unfold Letter.written at written
  cases first : left.final <;> cases second : right.final
  · rfl
  · rw [first, second, if_neg Bool.false_ne_true, if_pos rfl, char, rightSound second] at written
    cases written
  · rw [first, second, if_neg Bool.false_ne_true, if_pos rfl, ← char, leftSound first] at written
    cases written
  · rfl

theorem char_eq (leftSound : left.Sound) (rightSound : right.Sound)
    (final : left.final = right.final) (written : left.written = right.written) :
    left.char = right.char := by
  cases first : left.final with
  | true => rw [leftSound first, rightSound (final ▸ first)]
  | false => simpa [Letter.written, first, ← final] using written

end Letter

/-- Rows of letters that agree in one respect are equal if letters at the same place that
agree in it are. -/
theorem letters_eq {first second : List Letter} {respect : Letter → Char}
    (same : first.map respect = second.map respect)
    (agree : ∀ (i : Nat) (left right : Letter), first[i]? = some left → second[i]? = some right →
      respect left = respect right → left = right) : first = second := by
  have length : first.length = second.length := by simpa using congrArg List.length same
  refine List.ext_getElem length fun i inFirst inSecond => ?_
  have here := congrArg (·[i]?) same
  simp only [List.getElem?_map, List.getElem?_eq_getElem inFirst,
    List.getElem?_eq_getElem inSecond, Option.map_some, Option.some.injEq] at here
  exact agree i _ _ (List.getElem?_eq_getElem inFirst) (List.getElem?_eq_getElem inSecond) here

end Text

open Text

variable {a b : String}

/-- The folded form of a name has its letter number `i` from a capital sigma that ends a word
of the name. -/
def FinalAt (name : String) (i : Nat) : Prop :=
  ∃ before after, name.toList = before ++ 'Σ' :: after ∧
    meetsCased before.reverse = true ∧ meetsCased after = false ∧
    i = (before.flatMap lowercaseChar).length

theorem finalAt_iff {name : String} {i : Nat} :
    FinalAt name i ↔ (letters [] name.toList)[i]?.any Letter.final = true := by
  simp [FinalAt, any_final_iff, endsWord, and_assoc]

theorem eqFolded_iff_chars : eqFolded a b = true ↔
    (letters [] a.toList).map Letter.char = (letters [] b.toList).map Letter.char := by
  rw [eqFolded, beq_iff_eq, chars_letters, chars_letters]

theorem fold_eq_iff_written : fold a = fold b ↔
    (letters [] a.toList).map Letter.written = (letters [] b.toList).map Letter.written := by
  rw [fold, fold, String.ofList_inj, lowercase, lowercase, written_letters, written_letters]

/-- Names that both comparisons take for equal have the same letters. -/
theorem letters_eq_of_both (compared : eqFolded a b = true) (folded : fold a = fold b) :
    letters [] a.toList = letters [] b.toList := by
  refine letters_eq (eqFolded_iff_chars.mp compared) fun i left right atLeft atRight char => ?_
  have written := congrArg (·[i]?) (fold_eq_iff_written.mp folded)
  simp only [List.getElem?_map, atLeft, atRight, Option.map_some, Option.some.injEq] at written
  have leftSound := sound_of_mem_letters (List.mem_of_getElem? atLeft)
  have rightSound := sound_of_mem_letters (List.mem_of_getElem? atRight)
  exact Letter.ext char (Letter.final_eq leftSound rightSound char written)

/-- Names that have their final sigmas at the same places, and one of the comparisons takes
for equal, have the same letters. -/
theorem letters_eq_of_places (places : ∀ i, FinalAt a i ↔ FinalAt b i)
    (either : eqFolded a b = true ∨ fold a = fold b) :
    letters [] a.toList = letters [] b.toList := by
  have final : ∀ (i : Nat) (left right : Letter), (letters [] a.toList)[i]? = some left →
      (letters [] b.toList)[i]? = some right → left.final = right.final := by
    intro i left right atLeft atRight
    have place := places i
    rw [finalAt_iff, finalAt_iff, atLeft, atRight] at place
    exact Bool.eq_iff_iff.mpr place
  rcases either with compared | folded
  · refine letters_eq (eqFolded_iff_chars.mp compared) fun i left right atLeft atRight char => ?_
    exact Letter.ext char (final i left right atLeft atRight)
  · refine letters_eq (fold_eq_iff_written.mp folded) fun i left right atLeft atRight written => ?_
    have same := final i left right atLeft atRight
    have leftSound := sound_of_mem_letters (List.mem_of_getElem? atLeft)
    have rightSound := sound_of_mem_letters (List.mem_of_getElem? atRight)
    exact Letter.ext (Letter.char_eq leftSound rightSound same written) same

/-- Comparing two names letter by letter agrees with comparing their folded forms exactly if
their final sigmas stand at the same places, where one of the comparisons succeeds at all. So
it always agrees on names without a capital sigma at the end of a word. -/
theorem eqFolded_agrees (a b : String) :
    ((eqFolded a b = true ↔ fold a = fold b) ↔
      (eqFolded a b = true ∨ fold a = fold b → ∀ i, FinalAt a i ↔ FinalAt b i)) ∧
    ((∀ i, ¬FinalAt a i) → (∀ i, ¬FinalAt b i) → (eqFolded a b = true ↔ fold a = fold b)) := by
  have exact_ : (eqFolded a b = true ↔ fold a = fold b) ↔
      (eqFolded a b = true ∨ fold a = fold b → ∀ i, FinalAt a i ↔ FinalAt b i) := by
    constructor
    · intro agrees either i
      have compared : eqFolded a b = true := either.elim id agrees.mpr
      rw [finalAt_iff, finalAt_iff, letters_eq_of_both compared (agrees.mp compared)]
    · intro places
      constructor
      · intro compared
        rw [fold_eq_iff_written, letters_eq_of_places (places (.inl compared)) (.inl compared)]
      · intro folded
        rw [eqFolded_iff_chars, letters_eq_of_places (places (.inr folded)) (.inr folded)]
  refine ⟨exact_, fun noneFirst noneSecond => exact_.mpr fun _ i => ?_⟩
  exact iff_of_false (noneFirst i) (noneSecond i)

set_option maxRecDepth 20000 in
/-- A capital and a small letter at the end of a word are told apart, though both are folded
to the same name; and letters with different folded forms are not. -/
theorem eqFolded_mistakes_final_sigma :
    fold "ΑΣ" = fold "ας" ∧ eqFolded "ΑΣ" "ας" = false ∧
      fold "ΑΣ" ≠ fold "ασ" ∧ eqFolded "ΑΣ" "ασ" = true := by
  decide

end EntitySchema
