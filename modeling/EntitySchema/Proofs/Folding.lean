import EntitySchema.Text.Blank
import EntitySchema.Text.Lowercase
import Mathlib.Algebra.Group.Nat.Defs
import Mathlib.Data.List.DropRight

/-! Folded names. Folding twice is folding once, since no image of the lowercase
table has a lowercase form of its own, and folding neither adds nor removes blanks
at the ends of a name. -/
namespace EntitySchema.Text

/-- Characters that folding keeps wherever they stand. -/
def Settled (c : Char) : Prop := c ≠ 'Σ' ∧ lowercaseChar c = [c]

namespace CaseRange

/-- How many characters a range maps. -/
def count (range : CaseRange) : Nat := (range.last - range.first) / range.step + 1

def sources (range : CaseRange) : List Nat := List.range' range.first range.count range.step

def images (range : CaseRange) : List Nat := List.range' range.image range.count range.step

theorem contains_iff {range : CaseRange} {n : Nat} :
    range.contains n = true ↔
      range.first ≤ n ∧ n ≤ range.last ∧ (n - range.first) % range.step = 0 := by
  simp [contains, and_assoc]

/-- A character that a range maps has a place in it, at which its image stands. -/
theorem exists_place {range : CaseRange} {n : Nat} (inside : range.contains n = true) :
    ∃ i < range.count, n = range.first + range.step * i ∧
      range.image + (n - range.first) = range.image + range.step * i := by
  obtain ⟨low, high, steps⟩ := contains_iff.mp inside
  have whole := Nat.mul_div_cancel' (Nat.dvd_of_mod_eq_zero steps)
  refine ⟨(n - range.first) / range.step, ?_, by omega, by omega⟩
  exact Nat.lt_succ_of_le (Nat.div_le_div_right (by omega))

theorem mem_sources {range : CaseRange} {n : Nat} (inside : range.contains n = true) :
    n ∈ range.sources := by
  obtain ⟨i, below, place, -⟩ := exists_place inside
  exact List.mem_range'.mpr ⟨i, below, place⟩

theorem mem_images {range : CaseRange} {n : Nat} (inside : range.contains n = true) :
    range.image + (n - range.first) ∈ range.images := by
  obtain ⟨i, below, -, place⟩ := exists_place inside
  exact List.mem_range'.mpr ⟨i, below, place⟩

end CaseRange

/-- Sets of characters as the bits of one number, which are compared all at once. -/
def bits (numbers : List Nat) : Nat := numbers.foldr (fun n set => 2 ^ n ||| set) 0

def allBits (rows : List (List Nat)) : Nat := rows.foldr (fun row set => bits row ||| set) 0

theorem testBit_bits {numbers : List Nat} {n : Nat} :
    (bits numbers).testBit n = true ↔ n ∈ numbers := by
  induction numbers with
  | nil => simp [bits]
  | cons first rest ih =>
    have split : bits (first :: rest) = 2 ^ first ||| bits rest := rfl
    rw [split, Nat.testBit_or, Bool.or_eq_true, ih, Nat.testBit_two_pow, decide_eq_true_eq,
      List.mem_cons, eq_comm]

theorem testBit_allBits {rows : List (List Nat)} {n : Nat} :
    (allBits rows).testBit n = true ↔ ∃ row ∈ rows, n ∈ row := by
  induction rows with
  | nil => simp [allBits]
  | cons first rest ih =>
    have split : allBits (first :: rest) = bits first ||| allBits rest := rfl
    rw [split, Nat.testBit_or, Bool.or_eq_true, ih, testBit_bits]
    simp

theorem not_testBit_of_and_eq_zero {first second n : Nat} (apart : first &&& second = 0)
    (member : first.testBit n = true) : second.testBit n = false := by
  have both := Nat.testBit_and first second n
  rw [apart, Nat.zero_testBit, member, Bool.true_and] at both
  exact both.symm

def sourceBits : Nat := allBits (lowercaseRanges.map CaseRange.sources)

/-- Images, together with the two forms of small sigma and the dot that `İ` is left with. -/
def imageBits : Nat :=
  allBits ([0x307, 0x3c2, 0x3c3] :: lowercaseRanges.map CaseRange.images)

theorem testBit_sourceBits {range : CaseRange} {n : Nat} (listed : range ∈ lowercaseRanges)
    (inside : range.contains n = true) : sourceBits.testBit n = true :=
  testBit_allBits.mpr ⟨_, List.mem_map_of_mem listed, CaseRange.mem_sources inside⟩

theorem testBit_imageBits {range : CaseRange} {n : Nat} (listed : range ∈ lowercaseRanges)
    (inside : range.contains n = true) :
    imageBits.testBit (range.image + (n - range.first)) = true :=
  testBit_allBits.mpr
    ⟨_, List.mem_cons_of_mem _ (List.mem_map_of_mem listed), CaseRange.mem_images inside⟩

theorem testBit_imageBits_of_mem {n : Nat} (member : n ∈ [0x307, 0x3c2, 0x3c3]) :
    imageBits.testBit n = true :=
  testBit_allBits.mpr ⟨_, List.mem_cons_self, member⟩

set_option maxRecDepth 20000 in
/-- Images are characters, those in ASCII are small letters, and none is the letter
with a form of two characters. -/
theorem lowercaseRanges_images : ∀ range ∈ lowercaseRanges,
    let last := range.image + (range.last - range.first)
    (last < 0xd800 ∨ 0xdfff < range.image ∧ last < 0x110000) ∧
      (0x130 < range.image ∨ last < 0x130) ∧ (0x3a3 < range.image ∨ last < 0x3a3) ∧
      (0x80 ≤ range.image ∨ 0x61 ≤ range.image ∧ last ≤ 0x7a) := by
  decide

/-- The characters with the property White_Space. -/
def blanks : List Nat :=
  List.range' 9 5 ++ [0x20, 0x85, 0xa0, 0x1680] ++ List.range' 0x2000 11 ++
    [0x2028, 0x2029, 0x202f, 0x205f, 0x3000]

theorem mem_blanks_of_isBlank {c : Char} (blank : isBlank c = true) : c.toNat ∈ blanks := by
  simp only [isBlank, Bool.or_eq_true, Bool.and_eq_true, decide_eq_true_eq, beq_iff_eq] at blank
  simp only [blanks, List.mem_append, List.mem_range'_1, List.mem_cons, List.not_mem_nil, or_false]
  omega

/-- No image has a lowercase form of its own, and no blank has such a form or is one. -/
theorem tables_apart : imageBits &&& sourceBits = 0 ∧
    bits blanks &&& (sourceBits ||| imageBits) = 0 := by
  decide +kernel

theorem not_blank_of_contains {range : CaseRange} {n : Nat} (listed : range ∈ lowercaseRanges)
    (inside : range.contains n = true) :
    n ∉ blanks ∧ range.image + (n - range.first) ∉ blanks := by
  constructor
  · intro blank
    have clear := not_testBit_of_and_eq_zero tables_apart.2 (testBit_bits.mpr blank)
    rw [Nat.testBit_or, testBit_sourceBits listed inside, Bool.true_or] at clear
    cases clear
  · intro blank
    have clear := not_testBit_of_and_eq_zero tables_apart.2 (testBit_bits.mpr blank)
    rw [Nat.testBit_or, testBit_imageBits listed inside, Bool.or_true] at clear
    cases clear

theorem toNat_image {range : CaseRange} {n : Nat} (listed : range ∈ lowercaseRanges)
    (inside : range.contains n = true) :
    (Char.ofNat (range.image + (n - range.first))).toNat = range.image + (n - range.first) := by
  obtain ⟨low, high, -⟩ := CaseRange.contains_iff.mp inside
  have valid : (range.image + (n - range.first)).isValidChar := by
    have bounds := (lowercaseRanges_images range listed).1
    simp only [Nat.isValidChar]
    omega
  rw [Char.ofNat, dif_pos valid]
  rfl

/-- Beyond ASCII, an image is kept by folding. -/
theorem settled_of_testBit {c : Char} (beyond : 0x80 ≤ c.toNat) (sigma : c ≠ 'Σ')
    (pair : c.toNat ≠ 0x130) (image : imageBits.testBit c.toNat = true) : Settled c := by
  have other : c ≠ 'İ' := fun same => pair (by rw [same]; rfl)
  have missing : lowercaseRanges.find? (·.contains c.toNat) = none := by
    rw [List.find?_eq_none]
    intro range listed contained
    have clear := not_testBit_of_and_eq_zero tables_apart.1 image
    rw [testBit_sourceBits listed contained] at clear
    cases clear
  exact ⟨sigma, by rw [lowercaseChar, if_neg (by omega), if_neg other, missing]⟩

theorem ascii_toLower : ∀ n < 0x80, Settled (Char.ofNat n).toLower ∧
    isBlank (Char.ofNat n).toLower = isBlank (Char.ofNat n) ∧
      (0x61 ≤ n → Settled (Char.ofNat n)) := by
  unfold Settled
  decide

/-- The lowercase form of a character is a small letter, the exceptional pair, the
image under some range, or the character itself. -/
theorem lowercaseChar_cases (c : Char) :
    (c.toNat < 0x80 ∧ lowercaseChar c = [c.toLower]) ∨
      (c = 'İ' ∧ lowercaseChar c = ['i', '\u0307']) ∨
      (∃ range ∈ lowercaseRanges, range.contains c.toNat = true ∧
        lowercaseChar c = [Char.ofNat (range.image + (c.toNat - range.first))]) ∨
      (lowercaseChar c = [c]) := by
  by_cases ascii : c.toNat < 0x80
  · exact .inl ⟨ascii, by rw [lowercaseChar, if_pos ascii]⟩
  by_cases pair : c = 'İ'
  · exact .inr (.inl ⟨pair, by rw [lowercaseChar, if_neg ascii, if_pos pair]⟩)
  cases found : lowercaseRanges.find? (·.contains c.toNat) with
  | none => exact .inr (.inr (.inr (by rw [lowercaseChar, if_neg ascii, if_neg pair, found])))
  | some range =>
    refine .inr (.inr (.inl ⟨range, List.mem_of_find?_eq_some found, ?_, ?_⟩))
    · simpa using List.find?_some found
    · rw [lowercaseChar, if_neg ascii, if_neg pair, found]

theorem settled_image {range : CaseRange} {n : Nat} (listed : range ∈ lowercaseRanges)
    (inside : range.contains n = true) :
    Settled (Char.ofNat (range.image + (n - range.first))) := by
  have value := toNat_image listed inside
  obtain ⟨low, high, -⟩ := CaseRange.contains_iff.mp inside
  obtain ⟨-, pair, sigma, letters⟩ := lowercaseRanges_images range listed
  by_cases ascii : range.image + (n - range.first) < 0x80
  · exact (ascii_toLower _ ascii).2.2 (by omega)
  · refine settled_of_testBit (by omega) (fun same => ?_) (by omega) ?_
    · rw [same] at value
      change 0x3a3 = _ at value
      omega
    · rw [value]
      exact testBit_imageBits listed inside

theorem settled_of_mem_lowercaseChar {c d : Char} (other : c ≠ 'Σ')
    (member : d ∈ lowercaseChar c) : Settled d := by
  rcases lowercaseChar_cases c with ⟨ascii, form⟩ | ⟨-, form⟩ | ⟨range, listed, inside, form⟩ | form
  · rw [form, List.mem_singleton] at member
    simpa [member] using (ascii_toLower c.toNat ascii).1
  · rw [form, List.mem_pair] at member
    rcases member with rfl | rfl
    · exact (ascii_toLower 0x69 (by decide)).1
    · exact settled_of_testBit (by decide) (by decide) (by decide)
        (testBit_imageBits_of_mem (by decide))
  · rw [form, List.mem_singleton] at member
    exact member ▸ settled_image listed inside
  · rw [form, List.mem_singleton] at member
    subst member
    exact ⟨other, form⟩

theorem isBlank_of_mem_lowercaseChar {c d : Char} (member : d ∈ lowercaseChar c) :
    isBlank d = isBlank c := by
  rcases lowercaseChar_cases c with
    ⟨ascii, form⟩ | ⟨same, form⟩ | ⟨range, listed, inside, form⟩ | form
  · rw [form, List.mem_singleton] at member
    simpa [member] using (ascii_toLower c.toNat ascii).2.1
  · have pair : isBlank 'i' = isBlank 'İ' ∧ isBlank '\u0307' = isBlank 'İ' := by decide
    rw [form, List.mem_pair] at member
    rcases member with rfl | rfl
    · exact same ▸ pair.1
    · exact same ▸ pair.2
  · rw [form, List.mem_singleton] at member
    obtain ⟨clear, imageClear⟩ := not_blank_of_contains listed inside
    have first : isBlank c = false := by
      rw [Bool.eq_false_iff]
      exact fun blank => clear (mem_blanks_of_isBlank blank)
    have second : isBlank d = false := by
      rw [Bool.eq_false_iff]
      intro blank
      have listedBlank := mem_blanks_of_isBlank blank
      rw [member, toNat_image listed inside] at listedBlank
      exact imageClear listedBlank
    rw [first, second]
  · rw [form, List.mem_singleton] at member
    rw [member]

theorem lowercaseChar_ne_nil (c : Char) : lowercaseChar c ≠ [] := by
  rcases lowercaseChar_cases c with ⟨-, form⟩ | ⟨-, form⟩ | ⟨_, -, -, form⟩ | form <;>
    simp [form]

/-! What holds of single characters holds of them between any neighbours. -/

theorem settled_of_mem_lowercaseBetween {before after : List Char} {c d : Char}
    (member : d ∈ lowercaseBetween before c after) : Settled d := by
  have sigmas : Settled 'ς' ∧ Settled 'σ' := by
    constructor
    · exact settled_of_testBit (by decide) (by decide) (by decide)
        (testBit_imageBits_of_mem (by decide))
    · exact settled_of_testBit (by decide) (by decide) (by decide)
        (testBit_imageBits_of_mem (by decide))
  rw [lowercaseBetween] at member
  split at member
  · split at member
    · exact List.mem_singleton.mp member ▸ sigmas.1
    · exact List.mem_singleton.mp member ▸ sigmas.2
  · exact settled_of_mem_lowercaseChar ‹_› member

theorem isBlank_of_mem_lowercaseBetween {before after : List Char} {c d : Char}
    (member : d ∈ lowercaseBetween before c after) : isBlank d = isBlank c := by
  rw [lowercaseBetween] at member
  split at member
  · rename_i sigma
    subst sigma
    split at member <;> rw [List.mem_singleton.mp member] <;> decide
  · exact isBlank_of_mem_lowercaseChar member

theorem lowercaseBetween_ne_nil (before : List Char) (c : Char) (after : List Char) :
    lowercaseBetween before c after ≠ [] := by
  rw [lowercaseBetween]
  split
  · split <;> simp
  · exact lowercaseChar_ne_nil c

/-! The mapping of a text piece by piece, its accumulator out of the way. -/

theorem lowercaseFrom_eq_append (before result text : List Char) :
    lowercaseFrom before result text = result.reverse ++ lowercaseFrom before [] text := by
  induction text generalizing before result with
  | nil => simp [lowercaseFrom]
  | cons c text ih =>
    rw [lowercaseFrom, ih, lowercaseFrom, ih (c :: before) (_ ++ [])]
    simp

theorem lowercaseFrom_cons (before : List Char) (c : Char) (text : List Char) :
    lowercaseFrom before [] (c :: text) =
      lowercaseBetween before c text ++ lowercaseFrom (c :: before) [] text := by
  rw [lowercaseFrom, lowercaseFrom_eq_append]
  simp

theorem settled_of_mem_lowercaseFrom {before text : List Char} {d : Char}
    (member : d ∈ lowercaseFrom before [] text) : Settled d := by
  induction text generalizing before with
  | nil => simp [lowercaseFrom] at member
  | cons c text ih =>
    rw [lowercaseFrom_cons, List.mem_append] at member
    rcases member with first | later
    · exact settled_of_mem_lowercaseBetween first
    · exact ih later

theorem lowercaseFrom_eq_self {before text : List Char} (settled : ∀ c ∈ text, Settled c) :
    lowercaseFrom before [] text = text := by
  induction text generalizing before with
  | nil => rfl
  | cons c text ih =>
    have first := settled c (by simp)
    rw [lowercaseFrom_cons, ih fun d member => settled d (by simp [member]), lowercaseBetween,
      if_neg first.1, first.2]
    rfl

theorem lowercase_lowercase (text : List Char) : lowercase (lowercase text) = lowercase text :=
  lowercaseFrom_eq_self fun _ member => settled_of_mem_lowercaseFrom member

/-! Texts are folded word by word: only within a word does the form of a character depend on
its neighbours. -/

theorem meetsCased_eq (text : List Char) :
    meetsCased text = (text.dropWhile isCaseIgnorable).head?.any isCased := by
  rw [meetsCased]
  cases text.dropWhile isCaseIgnorable <;> rfl

/-- A character that ends a word, whatever stands behind it, and is kept by folding. -/
structure Parts (c : Char) : Prop where
  heeded : isCaseIgnorable c = false
  uncased : isCased c = false
  settled : Settled c

section

variable {mark : Char} (parts : Parts mark)

include parts

theorem meetsCased_append (before rest : List Char) :
    meetsCased (before ++ mark :: rest) = meetsCased before := by
  have kept : (mark :: rest).dropWhile isCaseIgnorable = mark :: rest :=
    List.dropWhile_cons_of_neg (by simp [parts.heeded])
  rw [meetsCased_eq, meetsCased_eq, List.dropWhile_append, kept]
  cases before.dropWhile isCaseIgnorable with
  | nil => exact parts.uncased
  | cons c others => rfl

theorem lowercaseFrom_behind (before rest text : List Char) :
    lowercaseFrom (before ++ mark :: rest) [] text = lowercaseFrom before [] text := by
  induction text generalizing before with
  | nil => rfl
  | cons c text ih =>
    rw [lowercaseFrom_cons, lowercaseFrom_cons, lowercaseBetween, lowercaseBetween,
      meetsCased_append parts, ← List.cons_append, ih]

theorem lowercaseFrom_append (before text rest : List Char) :
    lowercaseFrom before [] (text ++ mark :: rest) =
      lowercaseFrom before [] text ++ mark :: lowercase rest := by
  induction text generalizing before with
  | nil =>
    have kept : lowercaseBetween before mark rest = [mark] := by
      rw [lowercaseBetween, if_neg parts.settled.1, parts.settled.2]
    rw [List.nil_append, lowercaseFrom_cons, kept, ← List.nil_append (mark :: before),
      lowercaseFrom_behind parts]
    rfl
  | cons c text ih =>
    rw [List.cons_append, lowercaseFrom_cons, lowercaseFrom_cons, lowercaseBetween,
      lowercaseBetween, meetsCased_append parts, ih, List.append_assoc]

end

set_option maxRecDepth 20000 in
/-- No blank is cased or case-ignorable. -/
theorem blanks_apart : ∀ n ∈ blanks,
    isCaseIgnorable (Char.ofNat n) = false ∧ isCased (Char.ofNat n) = false ∧
      Char.ofNat n ≠ 'Σ' ∧ (Char.ofNat n).toLower = Char.ofNat n := by
  decide

theorem parts_of_isBlank {c : Char} (blank : isBlank c = true) : Parts c := by
  have facts := blanks_apart c.toNat (mem_blanks_of_isBlank blank)
  rw [Char.ofNat_toNat] at facts
  obtain ⟨heeded, uncased, sigma, small⟩ := facts
  refine ⟨heeded, uncased, sigma, ?_⟩
  rcases lowercaseChar_cases c with ⟨-, form⟩ | ⟨rfl, -⟩ | ⟨range, listed, inside, -⟩ | form
  · rw [form, small]
  · cases blank
  · exact absurd (mem_blanks_of_isBlank blank) (not_blank_of_contains listed inside).1
  · exact form

/-! Trimmed texts are those without a blank at either end. -/

/-- Neither the first nor the last character is blank. -/
def BareEnds (text : List Char) : Prop :=
  (∀ c ∈ text.head?, isBlank c = false) ∧ ∀ c ∈ text.getLast?, isBlank c = false

theorem bareEnds_of_solid {text : List Char} (solid : ∀ c ∈ text, isBlank c = false) :
    BareEnds text :=
  ⟨fun c first => solid c (List.mem_of_mem_head? first),
    fun c last => solid c (List.mem_of_mem_getLast? last)⟩

theorem trimStart_eq_self_iff {text : List Char} :
    trimStart text = text ↔ ∀ c ∈ text.head?, isBlank c = false := by
  cases text with
  | nil => simp [trimStart]
  | cons c rest =>
    constructor
    · intro same d first
      obtain rfl : c = d := by simpa using first
      rw [Bool.eq_false_iff]
      intro blank
      rw [trimStart, List.dropWhile_cons_of_pos blank] at same
      have shorter := (List.dropWhile_sublist (l := rest) isBlank).length_le
      rw [same, List.length_cons] at shorter
      omega
    · intro bare
      rw [trimStart, List.dropWhile_cons_of_neg (by simp [bare c rfl])]

theorem head?_trimStart (text : List Char) : ∀ c ∈ (trimStart text).head?, isBlank c = false := by
  apply trimStart_eq_self_iff.mp
  rw [trimStart, trimStart, List.dropWhile_idempotent]

theorem trimEnd_eq_self_iff {text : List Char} :
    trimEnd text = text ↔ ∀ c ∈ text.getLast?, isBlank c = false := by
  rw [trimEnd, List.reverse_eq_iff, trimStart_eq_self_iff, List.head?_reverse]

theorem getLast?_trimEnd (text : List Char) :
    ∀ c ∈ (trimEnd text).getLast?, isBlank c = false := by
  rw [trimEnd, List.getLast?_reverse]
  exact head?_trimStart _

/-- What trimming cuts off at the end is blank. -/
theorem exists_trimEnd (text : List Char) :
    ∃ back, text = trimEnd text ++ back ∧ ∀ c ∈ back, isBlank c = true := by
  refine ⟨(text.reverse.takeWhile isBlank).reverse, ?_, fun c member => ?_⟩
  · rw [trimEnd, trimStart, ← List.reverse_append, List.takeWhile_append_dropWhile,
      List.reverse_reverse]
  · exact List.all_eq_true.mp List.all_takeWhile c (List.mem_reverse.mp member)

theorem trimEnd_append_of_isBlank {back : List Char} (blank : ∀ c ∈ back, isBlank c = true)
    (text : List Char) : trimEnd (text ++ back) = trimEnd text := by
  have reversed : ∀ c ∈ back.reverse, isBlank c = true := by simpa using blank
  rw [trimEnd, trimEnd, List.reverse_append, trimStart, trimStart,
    List.dropWhile_append_of_pos reversed]

/-- Trimming at the end leaves the first character unless it leaves nothing. -/
theorem head?_trimEnd {text : List Char} {c : Char} (first : c ∈ (trimEnd text).head?) :
    c ∈ text.head? := by
  obtain ⟨back, whole, -⟩ := exists_trimEnd text
  rw [whole]
  cases trimmed : trimEnd text with
  | nil => simp [trimmed] at first
  | cons d rest => simpa [trimmed] using first

theorem bareEnds_trim (text : List Char) : BareEnds (trim text) :=
  ⟨fun c first => head?_trimStart text c (head?_trimEnd first), getLast?_trimEnd _⟩

theorem trim_eq_self_iff {text : List Char} : trim text = text ↔ BareEnds text := by
  constructor
  · intro same
    exact same ▸ bareEnds_trim text
  · rintro ⟨first, last⟩
    rw [trim, trimStart_eq_self_iff.mpr first, trimEnd_eq_self_iff.mpr last]

/-- Only blank texts are trimmed to nothing. -/
theorem isBlank_of_trim_eq_nil {text : List Char} (empty : trim text = []) :
    ∀ c ∈ text, isBlank c = true := by
  have none : trimStart (trimStart text).reverse = [] := List.reverse_eq_nil_iff.mp empty
  have blank : ∀ c ∈ (trimStart text).reverse, isBlank c = true :=
    List.dropWhile_eq_nil_iff.mp none
  have start : trimStart text = [] := by
    cases rest : trimStart text with
    | nil => rfl
    | cons c others =>
      have bare := head?_trimStart text c (by rw [rest]; rfl)
      rw [blank c (by simp [rest])] at bare
      cases bare
  exact List.dropWhile_eq_nil_iff.mp start

theorem trim_eq_nil_iff {text : List Char} : trim text = [] ↔ ∀ c ∈ text, isBlank c = true := by
  constructor
  · exact isBlank_of_trim_eq_nil
  · intro blank
    rw [trim, trimStart, List.dropWhile_eq_nil_iff.mpr blank]
    rfl

/-- A text with nothing but blanks around it. -/
def Padded (text padded : List Char) : Prop :=
  ∃ front back, padded = front ++ (text ++ back) ∧ ∀ c ∈ front ++ back, isBlank c = true

theorem padded_trim (text : List Char) : Padded (trim text) text := by
  obtain ⟨back, whole, behind⟩ := exists_trimEnd (trimStart text)
  refine ⟨text.takeWhile isBlank, back, ?_, List.forall_mem_append.mpr ⟨?_, behind⟩⟩
  · rw [trim, ← whole, trimStart, List.takeWhile_append_dropWhile]
  · exact List.all_eq_true.mp List.all_takeWhile

/-- Trimming takes away the blanks around a text that has none at its ends. -/
theorem trim_of_padded {text padded : List Char} (bare : BareEnds text)
    (around : Padded text padded) : trim padded = text := by
  obtain ⟨front, back, rfl, blank⟩ := around
  obtain ⟨before, behind⟩ := List.forall_mem_append.mp blank
  cases text with
  | nil => exact trim_eq_nil_iff.mpr blank
  | cons c rest =>
    have first : trimStart (front ++ (c :: rest ++ back)) = c :: rest ++ back := by
      rw [trimStart, List.dropWhile_append_of_pos before]
      exact trimStart_eq_self_iff.mpr bare.1
    rw [trim, first, trimEnd_append_of_isBlank behind, trimEnd_eq_self_iff.mpr bare.2]

theorem head?_lowercase_isBlank (text : List Char) :
    (lowercase text).head?.map isBlank = text.head?.map isBlank := by
  cases text with
  | nil => rfl
  | cons c rest =>
    rw [lowercase, lowercaseFrom_cons]
    cases form : lowercaseBetween [] c rest with
    | nil => exact absurd form (lowercaseBetween_ne_nil _ _ _)
    | cons d more =>
      have member : d ∈ lowercaseBetween [] c rest := by simp [form]
      simp [isBlank_of_mem_lowercaseBetween member]

theorem lowercaseFrom_concat (before text : List Char) (c : Char) :
    ∃ front, lowercaseFrom before [] (text ++ [c]) =
      front ++ lowercaseBetween (text.reverse ++ before) c [] := by
  induction text generalizing before with
  | nil => exact ⟨[], by simp [lowercaseFrom_cons, lowercaseFrom]⟩
  | cons d text ih =>
    obtain ⟨front, split⟩ := ih (d :: before)
    refine ⟨lowercaseBetween before d (text ++ [c]) ++ front, ?_⟩
    rw [List.cons_append, lowercaseFrom_cons, split]
    simp

theorem getLast?_lowercase_isBlank (text : List Char) :
    (lowercase text).getLast?.map isBlank = text.getLast?.map isBlank := by
  cases text using List.reverseRecOn with
  | nil => rfl
  | append_singleton text c =>
    obtain ⟨front, split⟩ := lowercaseFrom_concat [] text c
    rw [lowercase, split]
    cases form : lowercaseBetween (text.reverse ++ []) c [] using List.reverseRecOn with
    | nil => exact absurd form (lowercaseBetween_ne_nil _ _ _)
    | append_singleton more d =>
      have member : d ∈ lowercaseBetween (text.reverse ++ []) c [] := by
        rw [form]
        simp
      simp [← List.append_assoc, isBlank_of_mem_lowercaseBetween member]

theorem bareEnds_lowercase_iff {text : List Char} : BareEnds (lowercase text) ↔ BareEnds text := by
  have ends : ∀ end? : Option Char,
      (∀ c ∈ end?, isBlank c = false) ↔ ∀ blank ∈ end?.map isBlank, blank = false := by
    intro end?
    simp
  unfold BareEnds
  rw [ends, ends, ends, ends, head?_lowercase_isBlank, getLast?_lowercase_isBlank]

/-- Blanks in front of a text do not matter to how it is folded. -/
theorem trimStart_lowercase (text : List Char) :
    trimStart (lowercase text) = lowercase (trimStart text) := by
  induction text with
  | nil => rfl
  | cons c rest ih =>
    cases blank : isBlank c with
    | true =>
      have front : lowercase (c :: rest) = c :: lowercase rest :=
        lowercaseFrom_append (parts_of_isBlank blank) [] [] rest
      rw [front, trimStart, trimStart, List.dropWhile_cons_of_pos blank,
        List.dropWhile_cons_of_pos blank]
      exact ih
    | false =>
      have bare : trimStart (c :: rest) = c :: rest := List.dropWhile_cons_of_neg (by simp [blank])
      rw [bare, trimStart_eq_self_iff]
      intro d first
      have same := head?_lowercase_isBlank (c :: rest)
      rw [Option.mem_def.mp first] at same
      simpa [blank] using same

theorem trimEnd_lowercase (text : List Char) :
    trimEnd (lowercase text) = lowercase (trimEnd text) := by
  induction text using List.reverseRecOn with
  | nil => rfl
  | append_singleton text c ih =>
    cases blank : isBlank c with
    | true =>
      have back : lowercase (text ++ [c]) = lowercase text ++ [c] :=
        lowercaseFrom_append (parts_of_isBlank blank) [] text []
      have last : ∀ d ∈ [c], isBlank d = true := List.forall_mem_singleton.mpr blank
      rw [back, trimEnd_append_of_isBlank last, trimEnd_append_of_isBlank last, ih]
    | false =>
      have bare : trimEnd (text ++ [c]) = text ++ [c] :=
        trimEnd_eq_self_iff.mpr (by simpa using blank)
      rw [bare, trimEnd_eq_self_iff]
      intro d last
      have same := getLast?_lowercase_isBlank (text ++ [c])
      rw [Option.mem_def.mp last] at same
      simpa [blank] using same

theorem trim_lowercase (text : List Char) : trim (lowercase text) = lowercase (trim text) := by
  rw [trim, trim, trimStart_lowercase, trimEnd_lowercase]

end EntitySchema.Text

namespace EntitySchema

/-- A name may be trimmed before or after it is folded. -/
theorem trimmed_fold (text : String) : trimmed (fold text) = fold (trimmed text) := by
  simp only [trimmed, fold, String.toList_ofList, Text.trim_lowercase]

theorem trimmed_eq_self_iff {text : String} :
    trimmed text = text ↔ Text.BareEnds text.toList := by
  rw [trimmed, ← Text.trim_eq_self_iff, ← String.toList_inj, String.toList_ofList]

@[simp] theorem trimmed_trimmed (text : String) : trimmed (trimmed text) = trimmed text := by
  rw [trimmed_eq_self_iff, trimmed, String.toList_ofList]
  exact Text.bareEnds_trim _

/-- A name has blanks at its ends exactly when its folded form has. -/
@[simp] theorem trimmed_fold_iff {text : String} :
    trimmed (fold text) = fold text ↔ trimmed text = text := by
  rw [trimmed_eq_self_iff, trimmed_eq_self_iff, fold, String.toList_ofList,
    Text.bareEnds_lowercase_iff]

@[simp] theorem fold_fold (text : String) : fold (fold text) = fold text := by
  simp [fold, Text.lowercase_lowercase]

end EntitySchema
