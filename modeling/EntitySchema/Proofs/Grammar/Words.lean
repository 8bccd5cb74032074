import EntitySchema.Grammar.Header
import EntitySchema.Proofs.Folding
import EntitySchema.Proofs.Grammar.Flags
import EntitySchema.Proofs.Grammar.Writing

/-! Keywords, numerals and rows of arguments are understood as what they were written for. -/
namespace EntitySchema
namespace Text

/-- The characters of keywords, as these are kept. -/
def isSmall (c : Char) : Bool := c.isLower || c.isDigit || c == '_'

theorem lt_of_isSmall {c : Char} (small : isSmall c = true) : c.toNat < 0x80 := by
  simp only [isSmall, Bool.or_eq_true, beq_iff_eq] at small
  rcases small with (lower | digit) | rfl
  · have below : c.val ≤ 'z'.val := of_decide_eq_true (Bool.and_eq_true_iff.mp lower).2
    exact Nat.lt_of_le_of_lt below (by decide)
  · have below : c.val ≤ '9'.val := of_decide_eq_true (Bool.and_eq_true_iff.mp digit).2
    exact Nat.lt_of_le_of_lt below (by decide)
  · decide

theorem ascii_small : ∀ n < 0x80, isSmall (Char.ofNat n) = true →
    (Char.ofNat n).toLower = Char.ofNat n ∧ isBareWord (Char.ofNat n) = true ∧
      Char.ofNat n ≠ '/' := by
  decide

theorem facts_of_isSmall {c : Char} (small : isSmall c = true) :
    c.toLower = c ∧ isBareWord c = true ∧ c ≠ '/' := by
  have facts := ascii_small c.toNat (lt_of_isSmall small)
  rw [Char.ofNat_toNat] at facts
  exact facts small

theorem isBareWord_of_isSmall {c : Char} (small : isSmall c = true) : isBareWord c = true :=
  (facts_of_isSmall small).2.1

theorem settled_of_isSmall {c : Char} (small : isSmall c = true) : Settled c := by
  have ascii := lt_of_isSmall small
  refine ⟨?_, by rw [lowercaseChar, if_pos ascii, (facts_of_isSmall small).1]⟩
  rintro rfl
  exact absurd ascii (by decide)

theorem isSmall_of_isDigit {c : Char} (digit : c.isDigit = true) : isSmall c = true := by
  simp [isSmall, digit]

theorem trim_eq_self_of_bare {text : List Char} (bare : ∀ c ∈ text, isBareWord c = true) :
    trim text = text :=
  trim_eq_self_iff.mpr
    (bareEnds_of_solid fun c member => isBlank_of_isBareWord (bare c member))

end Text

/-- Words that are kept as they are written. -/
def isKeyword (text : String) : Bool := text.toList != [] && text.toList.all Text.isSmall

theorem isKeyword_iff {text : String} : isKeyword text = true ↔
    text.toList ≠ [] ∧ ∀ c ∈ text.toList, Text.isSmall c = true := by
  simp [isKeyword]

theorem trimmed_of_isKeyword {text : String} (keyword : isKeyword text = true) :
    trimmed text = text := by
  obtain ⟨-, small⟩ := isKeyword_iff.mp keyword
  have bare := Text.trim_eq_self_of_bare fun c member => Text.isBareWord_of_isSmall (small c member)
  rw [trimmed, bare, String.ofList_toList]

theorem fold_of_isKeyword {text : String} (keyword : isKeyword text = true) :
    fold text = text := by
  obtain ⟨-, small⟩ := isKeyword_iff.mp keyword
  have settled := fun c member => Text.settled_of_isSmall (small c member)
  rw [fold, Text.lowercase, Text.lowercaseFrom_eq_self settled, String.ofList_toList]

/-- Where no two keywords are the same, each finds what it stands for. -/
theorem find?_keyword {α : Type} {all : List α} {keyword : α → String} {value : α}
    (distinct : (all.map keyword).Nodup) (member : value ∈ all) :
    all.find? (keyword · == keyword value) = some value := by
  obtain ⟨front, back, rfl⟩ := List.append_of_mem member
  refine List.find?_eq_some_iff_append.mpr
    ⟨beq_self_eq_true _, front, back, rfl, fun other inside => ?_⟩
  rw [List.map_append, List.map_cons] at distinct
  have apart := (List.nodup_append.mp distinct).2.2 _ (List.mem_map_of_mem inside) _
    List.mem_cons_self
  simpa using apart

namespace ValueType

theorem isKeyword_keyword (type : ValueType) : isKeyword type.keyword = true := by
  cases type <;> decide

/-- The short forms of two types are no keywords. -/
theorem keywords_distinct : ("bool" :: "int" :: all.map keyword).Nodup := by
  decide

theorem ofKeyword?_keyword (type : ValueType) : ofKeyword? type.keyword = some type := by
  have member : type ∈ all := List.mem_of_getElem? (ofIndex?_index type)
  have inside : type.keyword ∈ all.map keyword := List.mem_map_of_mem member
  obtain ⟨boolean, others⟩ := List.nodup_cons.mp keywords_distinct
  obtain ⟨integer, distinct⟩ := List.nodup_cons.mp others
  rw [ofKeyword?, trimmed_of_isKeyword type.isKeyword_keyword,
    fold_of_isKeyword type.isKeyword_keyword]
  split
  · rename_i same
    exact (boolean (same ▸ List.mem_cons_of_mem _ inside)).elim
  · rename_i same
    exact (integer (same ▸ inside)).elim
  · exact find?_keyword distinct member

end ValueType

namespace HelperKind

theorem isKeyword_keyword (kind : HelperKind) : isKeyword kind.keyword = true := by
  cases kind <;> decide

theorem ofKeyword?_eq_some_iff {text : String} {kind : HelperKind} :
    ofKeyword? text = some kind ↔ fold (trimmed text) = kind.keyword := by
  constructor
  · intro found
    rw [ofKeyword?] at found
    have same := List.find?_some found
    exact (beq_iff_eq.mp same).symm
  · intro same
    have distinct : (all.map keyword).Nodup := by decide
    have member : kind ∈ all := by cases kind <;> decide
    rw [ofKeyword?, same]
    exact find?_keyword distinct member

theorem ofKeyword?_keyword (kind : HelperKind) : ofKeyword? kind.keyword = some kind := by
  rw [ofKeyword?_eq_some_iff, trimmed_of_isKeyword kind.isKeyword_keyword,
    fold_of_isKeyword kind.isKeyword_keyword]

theorem ofKeyword?_eq_none_iff {text : String} :
    ofKeyword? text = none ↔ ∀ kind : HelperKind, fold (trimmed text) ≠ kind.keyword := by
  simp only [Option.eq_none_iff_forall_ne_some, ne_eq, ofKeyword?_eq_some_iff]

end HelperKind

theorem toList_toString (n : Nat) : (toString n).toList = Nat.toDigits 10 n := by
  rw [Nat.toString_eq_ofList_toDigits, String.toList_ofList]

theorem isKeyword_toString (n : Nat) : isKeyword (toString n) = true := by
  have numeral := Text.decimal_toDigits n
  rw [isKeyword_iff, toList_toString]
  exact ⟨numeral.nonempty, fun d member => Text.isSmall_of_isDigit (numeral.digits d member)⟩

namespace Grammar

/-- A flag is read back from the decimal value of its bit. -/
theorem flagBit_value {bit : FlagBit} (small : bit.power ≤ 127) (classname : String) :
    flagBit (toString bit.value) classname = .ok bit := by
  have kept : (trimmed (toString bit.value)).toList = Nat.toDigits 10 bit.value := by
    rw [trimmed_of_isKeyword (isKeyword_toString _), toList_toString]
  refine flagBit_of_bit small (.inl ?_)
  rw [kept, ← FlagBit.value_eq small]
  exact Text.decimal_toDigits _

/-- Text that can stand as an argument: without blanks around it and without the
characters that part arguments. -/
def Argument (text : String) : Prop :=
  trimmed text = text ∧ ∀ c ∈ text.toList, c ≠ ',' ∧ c ≠ '(' ∧ c ≠ ')'

instance (text : String) : Decidable (Argument text) :=
  haveI : Decidable (∀ c ∈ text.toList, c ≠ ',' ∧ c ≠ '(' ∧ c ≠ ')') := List.decidableBAll _ _
  inferInstanceAs (Decidable (trimmed text = text ∧ _))

theorem splitArguments_joined {arguments : List String}
    (plain : ∀ argument ∈ arguments, Argument argument) (some : arguments ≠ [""]) :
    splitArguments (joined arguments) = arguments := by
  rw [splitArguments, joined, String.toList_ofList]
  cases arguments with
  | nil => rfl
  | cons first others =>
    have commas : ∀ text ∈ (first :: others).map String.toList, ',' ∉ text := by
      intro text inside comma
      obtain ⟨argument, member, rfl⟩ := List.mem_map.mp inside
      exact ((plain argument member).2 ',' comma).1 rfl
    have parts := List.splitOn_intercalate ',' commas (by simp)
    have solid : Text.trim ([','].intercalate ((first :: others).map String.toList)) ≠ [] := by
      intro empty
      cases others with
      | nil =>
        have bare : trimmed first = first := (plain first List.mem_cons_self).1
        have none : Text.trim first.toList = [] := by simpa using empty
        rw [trimmed, none] at bare
        exact some (by rw [← bare])
      | cons second others =>
        have comma := Text.isBlank_of_trim_eq_nil empty ',' (by simp)
        cases comma
    rw [if_neg (by simpa using solid), parts, List.map_map]
    refine (List.map_congr_left fun argument member => ?_).trans (List.map_id _)
    exact (plain argument member).1

/-- Joined arguments hold what they hold, and commas. -/
theorem mem_joined {arguments : List String} {c : Char} (inside : c ∈ (joined arguments).toList) :
    c = ',' ∨ ∃ argument ∈ arguments, c ∈ argument.toList := by
  rw [joined, String.toList_ofList] at inside
  induction arguments with
  | nil => simp at inside
  | cons first others ih =>
    cases others with
    | nil => exact Or.inr ⟨first, List.mem_cons_self, by simpa using inside⟩
    | cons second others =>
      simp only [List.map_cons, List.intercalate_cons_cons, List.mem_append,
        List.mem_singleton] at inside ih
      rcases inside with (front | comma) | back
      · exact Or.inr ⟨first, List.mem_cons_self, front⟩
      · exact Or.inl comma
      · rcases ih back with comma | ⟨argument, member, within⟩
        · exact Or.inl comma
        · exact Or.inr ⟨argument, List.mem_cons_of_mem _ member, within⟩

/-! Keywords, numerals and arguments can be written as they are. -/

theorem valid_joined {arguments : List String}
    (plain : ∀ argument ∈ arguments, Argument argument) :
    (Piece.arguments (joined arguments)).Valid := by
  intro c inside
  rcases mem_joined inside with rfl | ⟨argument, member, within⟩
  · decide
  · exact ((plain argument member).2 c within).2

theorem valid_word {text : String} (keyword : isKeyword text = true) : (Piece.word text).Valid := by
  obtain ⟨some, small⟩ := isKeyword_iff.mp keyword
  refine ⟨⟨some, fun slash => ?_⟩, fun c member => Text.isBareWord_of_isSmall (small c member)⟩
  exact (Text.facts_of_isSmall (small '/' (List.mem_of_mem_head? slash))).2.2 rfl

theorem valid_arguments {text : String} (keyword : isKeyword text = true) :
    (Piece.arguments text).Valid := by
  obtain ⟨-, small⟩ := isKeyword_iff.mp keyword
  intro c member
  have bare := Text.isBareWord_of_isSmall (small c member)
  constructor
  · rintro rfl
    cases bare
  · rintro rfl
    cases bare

end Grammar
end EntitySchema
