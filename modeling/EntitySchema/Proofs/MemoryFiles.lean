import EntitySchema.Proofs.Disk.Identity
import EntitySchema.Proofs.OrderedMap
import Mathlib

/-! Files in memory as a store: the last file under a path is the one that is read, and the
spellings of a path that are of no account, so that they all lead to it. -/
namespace EntitySchema

namespace Text

variable {c : Char} {text before after : List Char}

theorem toLower_eq_self (other : c.isAlpha = false) : c.toLower = c := by
  apply Char.toLower_eq_of_not_isUpper
  intro upper
  have letter : c.isAlpha = true := Bool.or_eq_true_iff.mpr (.inl upper)
  rw [other] at letter
  cases letter

theorem toNat_of_isAlpha (letter : c.isAlpha = true) :
    0x41 ≤ c.toNat ∧ c.toNat ≤ 0x5a ∨ 0x61 ≤ c.toNat ∧ c.toNat ≤ 0x7a := by
  simpa [Char.isAlpha, Char.isUpper, Char.isLower, UInt32.le_iff_toNat_le] using letter

theorem isCased_of_isAlpha (letter : c.isAlpha = true) : isCased c = true := by
  rw [isCased, inRanges, List.any_eq_true]
  rcases toNat_of_isAlpha letter with capital | small
  · exact ⟨(0x41, 0x5a), .head _, by simp [capital]⟩
  · exact ⟨(0x61, 0x7a), .tail _ (.head _), by simp [small]⟩

set_option maxRecDepth 20000 in
theorem caseIgnorableRanges_apart : ∀ range ∈ caseIgnorableRanges,
    range.2 < 0x41 ∨ 0x5a < range.1 ∧ range.2 < 0x61 ∨ 0x7a < range.1 := by
  decide

theorem isCaseIgnorable_of_isAlpha (letter : c.isAlpha = true) : isCaseIgnorable c = false := by
  rw [isCaseIgnorable, inRanges, List.any_eq_false]
  intro range listed
  have apart := caseIgnorableRanges_apart range listed
  have bounds := toNat_of_isAlpha letter
  simp only [Bool.and_eq_true, decide_eq_true_eq]
  omega

theorem lowercaseChar_of_isAlpha (letter : c.isAlpha = true) :
    lowercaseChar c = [c.toLower] := by
  have bounds := toNat_of_isAlpha letter
  exact if_pos (by omega)

/-- Letters of ASCII count alike in both cases, for their own form and for that of a sigma. -/
theorem cases_toLower (c : Char) :
    isCased c.toLower = isCased c ∧ isCaseIgnorable c.toLower = isCaseIgnorable c ∧
      lowercaseChar c.toLower = lowercaseChar c := by
  cases letter : c.isAlpha with
  | false =>
    rw [toLower_eq_self letter]
    exact ⟨rfl, rfl, rfl⟩
  | true =>
    have small : c.toLower.isAlpha = true := (Char.isAlpha_toLower_eq_isAlpha c).trans letter
    refine ⟨?_, ?_, ?_⟩
    · rw [isCased_of_isAlpha small, isCased_of_isAlpha letter]
    · rw [isCaseIgnorable_of_isAlpha small, isCaseIgnorable_of_isAlpha letter]
    · rw [lowercaseChar_of_isAlpha small, lowercaseChar_of_isAlpha letter,
        Char.toLower_toLower_eq_toLower]

/-- What is no letter of ASCII is the small form of itself only. -/
theorem toLower_eq_iff {mark : Char} (plain : mark.isAlpha = false) :
    c.toLower = mark ↔ c = mark := by
  constructor
  · rintro rfl
    rw [Char.isAlpha_toLower_eq_isAlpha] at plain
    exact (toLower_eq_self plain).symm
  · rintro rfl
    exact toLower_eq_self plain

theorem meetsCased_map_toLower (text : List Char) :
    meetsCased (text.map Char.toLower) = meetsCased text := by
  have ignorable : isCaseIgnorable ∘ Char.toLower = isCaseIgnorable := by
    funext c
    exact (cases_toLower c).2.1
  rw [meetsCased_eq, meetsCased_eq, List.dropWhile_map, ignorable, List.head?_map]
  cases (text.dropWhile isCaseIgnorable).head? with
  | none => rfl
  | some c => exact (cases_toLower c).1

theorem lowercaseBetween_toLower (before : List Char) (c : Char) (after : List Char) :
    lowercaseBetween (before.map Char.toLower) c.toLower (after.map Char.toLower) =
      lowercaseBetween before c after := by
  have sigma : c.toLower = 'Σ' ↔ c = 'Σ' := toLower_eq_iff (by decide)
  simp only [lowercaseBetween, sigma, meetsCased_map_toLower, (cases_toLower c).2.2]

theorem lowercaseFrom_map_toLower (before text : List Char) :
    lowercaseFrom (before.map Char.toLower) [] (text.map Char.toLower) =
      lowercaseFrom before [] text := by
  induction text generalizing before with
  | nil => rfl
  | cons c text ih =>
    rw [List.map_cons, lowercaseFrom_cons, lowercaseFrom_cons, lowercaseBetween_toLower,
      ← List.map_cons, ih]

/-- Folding does not heed the case of letters of ASCII. -/
theorem lowercase_map_toLower (text : List Char) :
    lowercase (text.map Char.toLower) = lowercase text :=
  lowercaseFrom_map_toLower [] text

end Text

open FilePath

/-- Paths that differ in one respect that is of no account: in the case of letters of ASCII, in
one slash or in one segment that is empty or a dot. -/
inductive Respelled : String → String → Prop where
  | letters (text other : List Char) (same : text.map Char.toLower = other.map Char.toLower) :
      Respelled (String.ofList text) (String.ofList other)
  | slash (front back : List Char) :
      Respelled (String.ofList (front ++ '\\' :: back)) (String.ofList (front ++ '/' :: back))
  | segment (front back : List (List Char)) (segment : List Char) (void : isVoid segment = true) :
      Respelled (ofSegments (front ++ segment :: back)) (ofSegments (front ++ back))

namespace FilePath

variable {path other : String}

/-- A separator as it is meant. -/
def forward (c : Char) : Char := if c = '\\' then '/' else c

theorem forward_ne (c : Char) : forward c ≠ '\\' := by
  rw [forward]
  split
  · decide
  · assumption

theorem slashed_ofList (text : List Char) :
    slashed (String.ofList text) = String.ofList (text.map forward) := by
  rw [slashed, String.toList_ofList]
  rfl

theorem slashed_ofSegments (row : List (List Char)) :
    slashed (ofSegments row) = ofSegments (row.map (List.map forward)) := by
  rw [ofSegments, slashed_ofList, ofSegments, String.ofList_inj]
  induction row with
  | nil => rfl
  | cons first row ih =>
    cases row with
    | nil => simp
    | cons next row =>
      rw [List.intercalate_cons_cons, List.map_append, List.map_append, ih]
      simp only [List.map_cons, List.intercalate_cons_cons]
      rfl

theorem solid_segments_eq (row : List (List Char)) :
    solid (segments (ofSegments row)) = solid (row.flatMap (List.splitOn '/')) := by
  rw [segments, ofSegments, String.toList_ofList]
  induction row with
  | nil => rfl
  | cons first row ih =>
    cases row with
    | nil => simp
    | cons next row =>
      rw [List.intercalate_cons_cons, List.append_assoc, List.singleton_append,
        List.splitOn_append_cons_self, solid_append, ih, ← solid_append, ← List.flatMap_cons]

/-- The names along a path are those along its parts, which may be paths themselves. -/
theorem pathNames_ofSegments (row : List (List Char)) : pathNames (ofSegments row) =
    row.flatMap fun segment => solid ((segment.map forward).splitOn '/') := by
  rw [pathNames, slashed_ofSegments, solid_segments_eq, List.flatMap_map, solid,
    List.filter_flatMap]
  rfl

theorem normalizePath_congr (same : slashed path = slashed other) :
    normalizePath path = normalizePath other := by
  rw [normalizePath_eq_iff, pathNames, pathNames, same]

theorem normalizePath_of_letters
    (same : path.toList.map Char.toLower = other.toList.map Char.toLower) :
    normalizePath path = normalizePath other := by
  have small : ∀ text : List Char,
      Text.lowercase (text.map forward) = Text.lowercase ((text.map Char.toLower).map forward) := by
    intro text
    rw [← Text.lowercase_map_toLower, List.map_map, List.map_map]
    apply congrArg Text.lowercase
    apply List.map_congr_left
    intro c _
    have mark : c.toLower = '\\' ↔ c = '\\' := Text.toLower_eq_iff (by decide)
    simp only [Function.comp_apply, forward, mark]
    split
    · rfl
    · rfl
  have folded : Text.lowercase (path.toList.map forward) =
      Text.lowercase (other.toList.map forward) := by
    rw [small, same, ← small]
  unfold forward at folded
  rw [normalizePath, normalizePath, folded]

theorem normalizePath_of_respelled (respelled : Respelled path other) :
    normalizePath path = normalizePath other := by
  cases respelled with
  | letters text other same =>
    apply normalizePath_of_letters
    rwa [String.toList_ofList, String.toList_ofList]
  | slash front back =>
    apply normalizePath_congr
    rw [slashed_ofList, slashed_ofList, List.map_append, List.map_append]
    rfl
  | segment front back segment void =>
    rw [normalizePath_eq_iff, pathNames_ofSegments, pathNames_ofSegments, List.flatMap_append,
      List.flatMap_append, List.flatMap_cons]
    rcases Bool.or_eq_true_iff.mp void with empty | dot
    · rw [List.isEmpty_iff.mp empty]
      rfl
    · rw [beq_iff_eq.mp dot]
      rfl

theorem slashed_eq_self (apart : '\\' ∉ path.toList) : slashed path = path := by
  have same : path.toList.map (fun c => if c = '\\' then '/' else c) = path.toList := by
    refine (List.map_congr_left fun c member => ?_).trans (List.map_id _)
    rw [if_neg, id]
    rintro rfl
    exact apart member
  rw [slashed, same, String.ofList_toList]

theorem slashed_normalizePath (path : String) :
    slashed (normalizePath path) = normalizePath path := by
  apply slashed_eq_self
  intro found
  rcases mem_solid_of_mem found with slash | dot | ⟨segment, inside, there⟩
  · exact absurd slash (by decide)
  · exact absurd dot (by decide)
  · rw [solid_segments_normalizePath] at inside
    obtain ⟨name, listed, rfl⟩ := List.mem_map.mp inside
    have original := mem_of_mem_solid listed (Text.mem_of_mem_lowercaseFrom (by decide) there)
    rw [slashed, String.toList_ofList] at original
    obtain ⟨c, -, turned⟩ := List.mem_map.mp original
    exact forward_ne c turned

theorem normalizePath_normalizePath (path : String) :
    normalizePath (normalizePath path) = normalizePath path := by
  rw [normalizePath_eq, pathNames, slashed_normalizePath, solid_segments_normalizePath,
    normalizePath_eq, List.map_map]
  apply congrArg ofSegments
  apply List.map_congr_left
  intro name _
  exact Text.lowercase_lowercase name

end FilePath

namespace MemoryFiles

variable {store : MemoryFiles} {path other : String} {bytes : List UInt8}

theorem read_add_of_eq (same : normalizePath other = normalizePath path) :
    (store.add other bytes).read path = .ok bytes := by
  simp only [read, add, OrderedMap.get?_insert, same, if_true]

theorem read_add_of_ne (apart : normalizePath other ≠ normalizePath path) :
    (store.add other bytes).read path = store.read path := by
  simp only [read, add, OrderedMap.get?_insert, if_neg apart.symm]

theorem ofList_concat (files : List (String × List UInt8)) (file : String × List UInt8) :
    ofList (files ++ [file]) = (ofList files).add file.1 file.2 :=
  List.foldl_concat ..

/-- What is read is what was written last. -/
theorem read_ofList (files : List (String × List UInt8)) (path : String) :
    (ofList files).read path =
      match (files.filter fun file => normalizePath file.1 = normalizePath path).getLast? with
      | some file => .ok file.2
      | none => .error (.fileNotFound path) := by
  induction files using List.reverseRecOn with
  | nil =>
    have none : (ofList []).contents.get? (normalizePath path) = none :=
      OrderedMap.get?_eq_none_iff.mpr List.not_mem_nil
    rw [read, none]
    rfl
  | append_singleton files file ih =>
    rw [ofList_concat, List.filter_append]
    by_cases same : normalizePath file.1 = normalizePath path
    · have last : List.filter (fun file => normalizePath file.1 = normalizePath path) [file] =
          [file] := List.filter_cons_of_pos (by simpa using same)
      rw [last, List.getLast?_concat, read_add_of_eq same]
    · have other : List.filter (fun file => normalizePath file.1 = normalizePath path) [file] =
          [] := List.filter_cons_of_neg (by simpa using same)
      rw [other, List.append_nil, read_add_of_ne same, ih]

theorem mem_keys_ofList (files : List (String × List UInt8)) (key : String) :
    key ∈ (ofList files).contents.keys ↔ key ∈ files.map fun file => normalizePath file.1 := by
  induction files using List.reverseRecOn with
  | nil => exact iff_of_false List.not_mem_nil List.not_mem_nil
  | append_singleton files file ih =>
    rw [ofList_concat, add, OrderedMap.mem_keys_insert, ih, List.map_append, List.mem_append,
      List.map_singleton, List.mem_singleton, or_comm]

theorem size_ofList (files : List (String × List UInt8)) :
    (ofList files).size = (files.map fun file => normalizePath file.1).toFinset.card := by
  have keys : (ofList files).contents.keys.toFinset =
      (files.map fun file => normalizePath file.1).toFinset := by
    ext key
    rw [List.mem_toFinset, List.mem_toFinset, mem_keys_ofList]
  rw [← keys, List.toFinset_card_of_nodup (OrderedMap.keys_nodup _), OrderedMap.length_keys, size]

/-- Whatever was written and in whichever order, a path reads what was written last under a path
of its identity, and all paths of one identity are one file. Spellings without account do not
change the identity, nor does taking the identity for a path. -/
theorem last_write_wins (files : List (String × List UInt8)) (path : String) :
    ((ofList files).read path =
      match (files.filter fun file => normalizePath file.1 = normalizePath path).getLast? with
      | some file => .ok file.2
      | none => .error (.fileNotFound path)) ∧
    (∀ other bytes, normalizePath other ≠ normalizePath path →
      ((ofList files).add other bytes).read path = (ofList files).read path) ∧
    (ofList files).size = (files.map fun file => normalizePath file.1).toFinset.card ∧
    normalizePath (normalizePath path) = normalizePath path ∧
    ∀ other, Relation.EqvGen Respelled path other → normalizePath path = normalizePath other := by
  refine ⟨read_ofList files path, fun other bytes apart => read_add_of_ne apart,
    size_ofList files, normalizePath_normalizePath path, fun other respelled => ?_⟩
  induction respelled with
  | rel path other step => exact normalizePath_of_respelled step
  | refl path => rfl
  | symm path other _ ih => exact ih.symm
  | trans path between other _ _ first second => exact first.trans second

theorem last_write_wins_respelled :
    let files := [("base/common.fgd", [1]), ("Base\\Common.FGD", [2]), ("./other.fgd", [3])]
    normalizePath "BASE//common.fgd" = normalizePath "Base\\Common.FGD" ∧
      (ofList files).read "BASE//common.fgd" = .ok [2] ∧
      ((ofList files).add "Other.fgd" []).read "BASE//common.fgd" = .ok [2] ∧
      (ofList files).size = 2 := by
  intro files
  obtain ⟨found, apart, size, -, spelled⟩ := last_write_wins files "BASE//common.fgd"
  have empty : Respelled "BASE//common.fgd" "BASE/common.fgd" :=
    .segment ["BASE".toList] ["common.fgd".toList] [] rfl
  have letters : Respelled "BASE/common.fgd" "Base/Common.FGD" :=
    .letters "BASE/common.fgd".toList "Base/Common.FGD".toList (by decide)
  have slash : Respelled "Base\\Common.FGD" "Base/Common.FGD" :=
    .slash "Base".toList "Common.FGD".toList
  have respelled : Relation.EqvGen Respelled "BASE//common.fgd" "Base\\Common.FGD" :=
    .trans _ _ _ (.rel _ _ empty) (.trans _ _ _ (.rel _ _ letters) (.symm _ _ (.rel _ _ slash)))
  have last : (ofList files).read "BASE//common.fgd" = .ok [2] := found.trans (by decide)
  exact ⟨spelled _ respelled, last, (apart "Other.fgd" [] (by decide)).trans last,
    size.trans (by decide)⟩

end MemoryFiles

end EntitySchema
