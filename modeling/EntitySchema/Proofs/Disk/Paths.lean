import EntitySchema.Disk.FilePath
import Mathlib.Data.List.Basic
import Mathlib.Data.List.DropRight

/-! Paths as rows of segments. Only the solid segments of a path tell where it leads. What is
cut out of a path and joined to what was before it has the same solid segments again. -/
namespace EntitySchema.FilePath

/-- The segments that are not void. -/
def solid (segments : List (List Char)) : List (List Char) := segments.filter (!isVoid ·)

variable {path base name directory : String} {row front left bases : List (List Char)}
  {first last segment : List Char} {c : Char}

theorem solid_append (front back : List (List Char)) :
    solid (front ++ back) = solid front ++ solid back := List.filter_append ..

theorem solid_cons_of_void (void : isVoid segment) : solid (segment :: row) = solid row :=
  List.filter_cons_of_neg (by simp [void])

theorem solid_cons_of_solid (firm : isVoid segment = false) :
    solid (segment :: row) = segment :: solid row :=
  List.filter_cons_of_pos (by simp [firm])

section Segments

theorem segments_ne_nil (path : String) : segments path ≠ [] :=
  List.splitOn_ne_nil '/' _

theorem ofSegments_segments (path : String) : ofSegments (segments path) = path := by
  rw [ofSegments, segments, List.intercalate_splitOn, String.ofList_toList]

theorem segments_ofSegments (apart : ∀ segment ∈ row, '/' ∉ segment) (filled : row ≠ []) :
    segments (ofSegments row) = row := by
  rw [segments, ofSegments, String.toList_ofList, List.splitOn_intercalate '/' apart filled]

/-- What a text is split at is in none of the parts. -/
theorem not_mem_splitOn (mark : Char) (text : List Char) :
    ∀ part ∈ text.splitOn mark, mark ∉ part := by
  induction text with
  | nil => simp
  | cons c rest ih =>
    rw [List.splitOn_cons_eq_if_modifyHead]
    obtain ⟨first, others, parts⟩ := List.exists_cons_of_ne_nil (List.splitOn_ne_nil mark rest)
    rw [parts] at ih ⊢
    split
    · simpa using ih
    · rename_i other
      rw [List.forall_mem_cons] at ih
      rw [List.modifyHead_cons, List.forall_mem_cons, List.mem_cons, not_or]
      exact ⟨⟨fun same => other (beq_iff_eq.mpr same.symm), ih.1⟩, ih.2⟩

theorem apart_segments (path : String) : ∀ segment ∈ segments path, '/' ∉ segment :=
  not_mem_splitOn '/' path.toList

theorem ofSegments_singleton (segment : List Char) :
    ofSegments [segment] = String.ofList segment := by
  rw [ofSegments, List.intercalate_singleton]

theorem segments_of_mem (inside : segment ∈ segments path) :
    segments (String.ofList segment) = [segment] := by
  have apart : ∀ other ∈ [segment], '/' ∉ other := by
    intro other same
    rw [List.mem_singleton.mp same]
    exact apart_segments path segment inside
  rw [← ofSegments_singleton, segments_ofSegments apart (List.cons_ne_nil segment [])]

theorem mem_intercalate (found : c ∈ List.intercalate ['/'] row) :
    c = '/' ∨ ∃ segment ∈ row, c ∈ segment := by
  induction row with
  | nil => cases found
  | cons segment row ih =>
    cases row with
    | nil => exact Or.inr ⟨segment, List.mem_cons_self, by simpa using found⟩
    | cons next row =>
      rw [List.intercalate_cons_cons, List.append_assoc, List.mem_append] at found
      rcases found with here | found
      · exact Or.inr ⟨segment, List.mem_cons_self, here⟩
      · rcases List.mem_cons.mp found with slash | later
        · exact Or.inl slash
        · exact (ih later).imp_right fun ⟨other, inside, there⟩ =>
            ⟨other, List.mem_cons_of_mem _ inside, there⟩

theorem mem_intercalate_of_mem (inside : segment ∈ row) (found : c ∈ segment) :
    c ∈ List.intercalate ['/'] row := by
  induction row with
  | nil => cases inside
  | cons other row ih =>
    cases row with
    | nil =>
      cases List.mem_singleton.mp inside
      simpa using found
    | cons next row =>
      rw [List.intercalate_cons_cons, List.append_assoc, List.mem_append]
      rcases List.mem_cons.mp inside with rfl | later
      · exact Or.inl found
      · exact Or.inr (List.mem_cons_of_mem _ (ih later))

/-- A character of a path is a separator or a dot, or it stands in a solid segment. -/
theorem mem_solid_of_mem (found : c ∈ path.toList) :
    c = '/' ∨ c = '.' ∨ ∃ segment ∈ solid (segments path), c ∈ segment := by
  rw [← ofSegments_segments path, ofSegments, String.toList_ofList] at found
  refine (mem_intercalate found).imp_right fun ⟨segment, inside, there⟩ => ?_
  cases firm : isVoid segment with
  | false => exact Or.inr ⟨segment, List.mem_filter.mpr ⟨inside, by simp [firm]⟩, there⟩
  | true =>
    left
    rcases Bool.or_eq_true_iff.mp firm with empty | dot
    · simp [List.isEmpty_iff.mp empty] at there
    · simpa [beq_iff_eq.mp dot] using there

theorem mem_of_mem_solid (inside : segment ∈ solid (segments path)) (found : c ∈ segment) :
    c ∈ path.toList := by
  rw [← ofSegments_segments path, ofSegments, String.toList_ofList]
  exact mem_intercalate_of_mem (List.mem_of_mem_filter inside) found

/-- Leaving out segments leaves out characters. -/
theorem intercalate_sublist {row larger : List (List Char)} (less : row.Sublist larger) :
    (List.intercalate ['/'] row).Sublist (List.intercalate ['/'] larger) := by
  induction less with
  | slnil => exact List.Sublist.refl _
  | @cons row larger segment less ih =>
    cases larger with
    | nil =>
      rw [List.sublist_nil.mp less]
      exact List.nil_sublist _
    | cons next larger =>
      rw [List.intercalate_cons_cons]
      exact ih.trans (List.sublist_append_right _ _)
  | @cons_cons row larger segment less ih =>
    cases larger with
    | nil => rw [List.sublist_nil.mp less]
    | cons next larger =>
      rw [List.intercalate_cons_cons]
      cases row with
      | nil =>
        rw [List.intercalate_singleton, List.append_assoc]
        exact List.sublist_append_left _ _
      | cons other row =>
        rw [List.intercalate_cons_cons]
        exact (List.Sublist.refl _).append ih

end Segments

section Joining

theorem join_empty (path : String) : join "" path = path := by
  rw [join, if_pos (by simp)]

theorem isAbsolute_join (filled : directory ≠ "") (relative : isAbsolute path = false) :
    isAbsolute (join directory path) = isAbsolute directory := by
  have begun : ∃ c rest, directory.toList = c :: rest :=
    List.exists_cons_of_ne_nil fun empty => filled (String.toList_eq_nil_iff.mp empty)
  obtain ⟨c, rest, spelled⟩ := begun
  have full : directory.isEmpty = false := by simpa using filled
  rw [join, relative, full, Bool.false_or, if_neg Bool.false_ne_true]
  split <;> simp [isAbsolute, spelled]

/-- A path that is joined to a directory comes behind the segments of it. If these end in a
slash, the empty segment behind that is left out. -/
theorem segments_join (filled : directory ≠ "") (relative : isAbsolute path = false) :
    ∃ front, segments (join directory path) = front ++ segments path ∧
      front.Sublist (segments directory) ∧ solid front = solid (segments directory) := by
  have full : directory.isEmpty = false := by simpa using filled
  rw [join, relative, full, Bool.false_or, if_neg Bool.false_ne_true]
  split
  · rename_i slash
    obtain ⟨rest, spelled⟩ := List.getLast?_eq_some_iff.mp slash
    have split : segments directory = List.splitOn '/' rest ++ [[]] := by
      rw [segments, spelled, List.splitOn_append_cons_self, List.splitOn_nil]
    refine ⟨List.splitOn '/' rest, ?_, ?_, ?_⟩
    · rw [segments, String.toList_append, spelled, List.append_assoc, List.singleton_append,
        List.splitOn_append_cons_self]
      rfl
    · rw [split]
      exact List.sublist_append_left _ _
    · rw [split, solid_append]
      exact (List.append_nil _).symm
  · refine ⟨segments directory, ?_, List.Sublist.refl _, rfl⟩
    rw [segments, String.toList_append, String.toList_append, List.append_assoc]
    exact List.splitOn_append_cons_self directory.toList path.toList

end Joining

section Stripping

/-- What is stripped off has the given solid segments. -/
theorem exists_of_stripComponents (stripped : stripComponents bases row = some left) :
    ∃ front, row = front ++ left ∧ solid front = bases := by
  fun_induction stripComponents bases row with
  | case1 row =>
    cases stripped
    exact ⟨[], rfl, rfl⟩
  | case2 => cases stripped
  | case3 base bases segment row void ih =>
    obtain ⟨front, rfl, same⟩ := ih stripped
    exact ⟨segment :: front, rfl, (solid_cons_of_void void).trans same⟩
  | case4 bases segment row firm ih =>
    obtain ⟨front, rfl, same⟩ := ih stripped
    exact ⟨segment :: front, rfl, by rw [solid_cons_of_solid (by simpa using firm), same]⟩
  | case5 => cases stripped

/-- What stands behind some segments is left when the solid ones are stripped off. Void
segments can be left in front of it. -/
theorem stripComponents_solid (front back : List (List Char)) :
    ∃ voids, (∀ segment ∈ voids, isVoid segment) ∧
      stripComponents (solid front) (front ++ back) = some (voids ++ back) := by
  induction front with
  | nil => exact ⟨[], nofun, by rw [solid, List.filter_nil, stripComponents]⟩
  | cons segment front ih =>
    obtain ⟨voids, all, stripped⟩ := ih
    cases firm : isVoid segment with
    | false =>
      refine ⟨voids, all, ?_⟩
      rw [solid_cons_of_solid firm, List.cons_append, stripComponents, firm,
        if_neg Bool.false_ne_true, if_pos rfl, stripped]
    | true =>
      rw [solid_cons_of_void firm]
      cases rest : solid front with
      | nil =>
        -- nothing is left to strip off, so that this segment is not passed over either
        rw [rest, stripComponents] at stripped
        refine ⟨segment :: voids, List.forall_mem_cons.mpr ⟨firm, all⟩, ?_⟩
        rw [stripComponents, List.cons_append, Option.some.inj stripped, List.cons_append]
      | cons base bases =>
        refine ⟨voids, all, ?_⟩
        rw [List.cons_append, stripComponents, firm, if_pos rfl, ← rest, stripped]

theorem trimEnd_concat (row : List (List Char)) (firm : isVoid last = false) :
    trimEnd (row ++ [last]) = row ++ [last] := by
  rw [trimEnd, List.reverse_concat, List.dropWhile_cons_of_neg (by simp [firm]),
    List.reverse_cons, List.reverse_reverse]

theorem trimEnd_sublist (row : List (List Char)) : (trimEnd row).Sublist row := by
  rw [trimEnd, ← List.reverse_sublist, List.reverse_reverse]
  exact List.dropWhile_sublist _

theorem dropWhile_concat (row : List (List Char)) (firm : isVoid last = false) :
    (row ++ [last]).dropWhile isVoid = row.dropWhile isVoid ++ [last] := by
  rw [List.dropWhile_append]
  split
  · rename_i empty
    rw [List.isEmpty_iff.mp empty, List.dropWhile_cons_of_neg (by simp [firm]), List.nil_append]
  · rfl

theorem solid_dropWhile (row : List (List Char)) : solid (row.dropWhile isVoid) = solid row := by
  induction row with
  | nil => rfl
  | cons segment row ih =>
    cases firm : isVoid segment with
    | false => rw [List.dropWhile_cons_of_neg (by simp [firm])]
    | true => rw [List.dropWhile_cons_of_pos firm, solid_cons_of_void firm, ih]

theorem solid_trimEnd (row : List (List Char)) : solid (trimEnd row) = solid row := by
  have turned := solid_dropWhile row.reverse
  rw [solid, solid, List.filter_reverse] at turned
  rw [trimEnd, solid, List.filter_reverse, turned, List.reverse_reverse]
  rfl

theorem isAbsolute_iff :
    isAbsolute path = true ↔ ∃ rest, segments path = [] :: rest ∧ rest ≠ [] := by
  rw [isAbsolute, segments]
  cases path.toList with
  | nil => simp
  | cons c rest =>
    rw [List.splitOn_cons_eq_if_modifyHead]
    obtain ⟨first, others, parts⟩ := List.exists_cons_of_ne_nil (List.splitOn_ne_nil '/' rest)
    split
    · rename_i slash
      simp [beq_iff_eq.mp slash]
    · rename_i other
      simpa [parts] using other

theorem filled_of_segments (split : segments path = first :: row) (filled : first ≠ []) :
    path ≠ "" := by
  rintro rfl
  cases split
  exact filled rfl

theorem relative_of_segments (split : segments path = first :: row) (filled : first ≠ []) :
    isAbsolute path = false := by
  by_contra absolute
  obtain ⟨rest, same, -⟩ := isAbsolute_iff.mp (Bool.not_eq_false _ ▸ absolute)
  cases split.symm.trans same
  exact filled rfl

/-- Without void segments in front, a path is relative. -/
theorem relative_of_dropWhile (apart : ∀ segment ∈ row.dropWhile isVoid, '/' ∉ segment) :
    isAbsolute (ofSegments (row.dropWhile isVoid)) = false := by
  have head := List.head?_dropWhile_not isVoid row
  cases rest : row.dropWhile isVoid with
  | nil => rfl
  | cons first others =>
    rw [rest] at apart head
    refine relative_of_segments (segments_ofSegments apart (List.cons_ne_nil first others)) ?_
    rintro rfl
    cases head

theorem splitFirst_of_segments (split : segments path = first :: row) (filled : first ≠ []) :
    splitFirst path = (some first, row) := by
  have named : first.isEmpty = false := by simpa using filled
  simp only [splitFirst, split, named, Bool.not_false, if_true]

theorem exists_of_relative (relative : isAbsolute path = false) (filled : path ≠ "") :
    ∃ first row, segments path = first :: row ∧ first ≠ [] := by
  obtain ⟨first, row, split⟩ := List.exists_cons_of_ne_nil (segments_ne_nil path)
  refine ⟨first, row, split, ?_⟩
  rintro rfl
  cases row with
  | nil =>
    rw [← ofSegments_segments path, split] at filled
    exact filled rfl
  | cons next row =>
    rw [isAbsolute_iff.mpr ⟨_, split, List.cons_ne_nil next row⟩] at relative
    cases relative

theorem components_of_segments (split : segments path = first :: row) (filled : first ≠ []) :
    components path = first :: solid row := by
  simp only [components, splitFirst_of_segments split filled]
  rfl

/-- An absolute path has the root for its first component. -/
theorem components_of_absolute (absolute : isAbsolute path = true) :
    ∃ row, components path = ['/'] :: row := by
  obtain ⟨rest, split, -⟩ := isAbsolute_iff.mp absolute
  refine ⟨solid rest, ?_⟩
  simp [components, splitFirst, split, absolute, solid]

theorem slash_ne_of_segments (split : segments path = first :: row) : first ≠ ['/'] := by
  rintro rfl
  exact apart_segments path ['/'] (by rw [split]; exact List.mem_cons_self) List.mem_cons_self

variable (split : segments path = first :: row) (filled : first ≠ [])

include split filled

theorem strip?_empty : strip? path "" = some (ofSegments (first :: trimEnd row)) := by
  have empty : components "" = [] := rfl
  simp only [strip?, splitFirst_of_segments split filled, empty, Option.some.injEq,
    slash_ne_of_segments split, if_false]
  rfl

/-- Behind the segments that lead to a base there is the name of the path below it. -/
theorem strip?_of_segments (others : segments base = first :: left) :
    strip? path base = (stripComponents (solid left) row).map fun rest =>
      ofSegments (trimEnd (rest.dropWhile isVoid)) := by
  simp only [strip?, splitFirst_of_segments split filled, components_of_segments others filled,
    if_true]

/-- A base of a relative path is empty, or begins as the path does. -/
theorem segments_of_strip (stripped : strip? path base = some name) :
    base = "" ∨ ∃ left, segments base = first :: left := by
  by_contra other
  rw [not_or, not_exists] at other
  obtain ⟨empty, apart⟩ := other
  have differs : ∃ root row, components base = root :: row ∧ first ≠ root := by
    cases absolute : isAbsolute base with
    | true =>
      obtain ⟨row, rooted⟩ := components_of_absolute absolute
      exact ⟨['/'], row, rooted, slash_ne_of_segments split⟩
    | false =>
      obtain ⟨root, row, begins, named⟩ := exists_of_relative absolute empty
      refine ⟨root, solid row, components_of_segments begins named, ?_⟩
      rintro rfl
      exact apart row begins
  obtain ⟨root, row, parts, different⟩ := differs
  simp only [strip?, splitFirst_of_segments split filled, parts, Option.some.injEq, different,
    if_false] at stripped
  cases stripped

end Stripping

/-- One path leads along the solid segments of another, and ends as that does. -/
structure Retraces (path other : String) : Prop where
  solid : solid (segments path) = solid (segments other)
  last : (segments path).getLast? = (segments other).getLast?
  relative : isAbsolute path = false

/-- What follows the solid segments of a base leads on from the base to where it led. -/
theorem retraces_join {more : List (List Char)}
    (split : segments path = first :: (row ++ (more ++ [last]))) (filled : first ≠ [])
    (firm : isVoid last = false) (others : segments base = first :: left)
    (covered : solid row = solid left) :
    Retraces (join base (ofSegments (more.dropWhile isVoid ++ [last]))) path := by
  have tail := dropWhile_concat more firm
  have apart : ∀ segment ∈ (more ++ [last]).dropWhile isVoid, '/' ∉ segment := by
    intro segment member
    have kept := (List.dropWhile_sublist isVoid).subset member
    refine apart_segments path segment ?_
    rw [split]
    exact List.mem_cons_of_mem _ (List.mem_append_right _ kept)
  have below := relative_of_dropWhile apart
  rw [tail] at apart below
  have baseFilled := filled_of_segments others filled
  obtain ⟨begun, joined, -, led⟩ := segments_join baseFilled below
  rw [segments_ofSegments apart (by simp)] at joined
  refine ⟨?_, ?_, ?_⟩
  · have begins : ∀ row, solid (first :: row) = solid [first] ++ solid row :=
      fun row => solid_append [first] row
    rw [joined, split, solid_append, led, others, begins left, begins (row ++ _),
      solid_append row, covered, solid_append, solid_append, solid_dropWhile, List.append_assoc]
  · rw [joined, split, ← List.append_assoc, ← List.append_assoc, ← List.cons_append,
      List.getLast?_concat, List.getLast?_concat]
  · rw [isAbsolute_join baseFilled below]
    exact relative_of_segments others filled

section Retracing

variable (relative : isAbsolute path = false) (ending : (segments path).getLast? = some last)
  (firm : isVoid last = false)

include ending firm in
theorem filled_of_ending : path ≠ "" := by
  rintro rfl
  cases ending
  cases firm

include ending firm in
theorem trimEnd_of_ending (split : segments path = first :: row) : trimEnd row = row := by
  rcases List.eq_nil_or_concat' row with rfl | ⟨front, final, rfl⟩
  · rfl
  · rw [split, ← List.cons_append, List.getLast?_concat] at ending
    cases ending
    exact trimEnd_concat front firm

include relative ending firm in
/-- A path that is joined again to the base that was stripped off it leads where it led. -/
theorem retraces_of_strip (stripped : strip? path base = some name) (named : name ≠ "") :
    Retraces (join base name) path := by
  obtain ⟨first, row, split, filled⟩ :=
    exists_of_relative relative (filled_of_ending ending firm)
  rcases segments_of_strip split filled stripped with rfl | ⟨left, others⟩
  · rw [strip?_empty split filled, trimEnd_of_ending ending firm split, ← split,
      ofSegments_segments] at stripped
    cases stripped
    rw [join_empty]
    exact ⟨rfl, rfl, relative⟩
  · rw [strip?_of_segments split filled others] at stripped
    obtain ⟨rest, found, rfl⟩ := Option.map_eq_some_iff.mp stripped
    obtain ⟨front, rfl, covered⟩ := exists_of_stripComponents found
    rcases List.eq_nil_or_concat' rest with rfl | ⟨more, final, rfl⟩
    · exact absurd rfl named
    · rw [split, ← List.append_assoc, ← List.cons_append, List.getLast?_concat] at ending
      cases ending
      rw [dropWhile_concat more firm, trimEnd_concat _ firm]
      exact retraces_join split filled firm others covered

/-- The path of the directory that holds a path of more than one segment. -/
theorem strip?_above {front : List (List Char)}
    (split : segments path = first :: (front ++ [last])) (filled : first ≠ [])
    (firm : isVoid last = false) (above : segments base = first :: trimEnd front) :
    parent? path = some (ofSegments (first :: trimEnd front)) ∧
      strip? path base = some (String.ofList last) := by
  constructor
  · simp only [parent?, splitFirst_of_segments split filled, trimEnd_concat front firm,
      List.reverse_concat, slash_ne_of_segments split, if_false, List.reverse_reverse]
  · obtain ⟨voids, all, stripped⟩ := stripComponents_solid front [last]
    rw [strip?_of_segments split filled above, solid_trimEnd, stripped, Option.map_some,
      dropWhile_concat voids firm, List.dropWhile_eq_nil_iff.mpr all, trimEnd_concat [] firm,
      List.nil_append, ofSegments_singleton]

include relative ending firm in
/-- A path lies below the directory that holds it, where it has its last segment for a name. -/
theorem exists_parent : ∃ directory, parent? path = some directory ∧
    strip? path directory = some (String.ofList last) ∧
    (segments (join directory (String.ofList last))).Sublist (segments path) := by
  obtain ⟨first, row, split, filled⟩ :=
    exists_of_relative relative (filled_of_ending ending firm)
  have single : segments (String.ofList last) = [last] :=
    segments_of_mem (List.mem_of_getLast? ending)
  rcases List.eq_nil_or_concat' row with rfl | ⟨front, final, rfl⟩
  · rw [split, List.getLast?_singleton] at ending
    cases ending
    refine ⟨"", ?_, ?_, ?_⟩
    · simp only [parent?, splitFirst_of_segments split filled]
      exact if_neg (slash_ne_of_segments split)
    · rw [strip?_empty split filled]
      exact congrArg some (ofSegments_singleton _)
    · rw [join_empty, single, split]
  · rw [split, ← List.cons_append, List.getLast?_concat] at ending
    cases ending
    have kept : (first :: trimEnd front).Sublist (first :: front) :=
      (trimEnd_sublist front).cons_cons first
    have apart : ∀ segment ∈ first :: trimEnd front, '/' ∉ segment := by
      intro segment member
      refine apart_segments path segment ?_
      rw [split, ← List.cons_append]
      exact List.mem_append_left _ (kept.subset member)
    have above := segments_ofSegments apart (List.cons_ne_nil _ _)
    obtain ⟨directory, stripped⟩ := strip?_above split filled firm above
    refine ⟨_, directory, stripped, ?_⟩
    have below : isAbsolute (String.ofList last) = false := by
      refine relative_of_segments single ?_
      rintro rfl
      cases firm
    obtain ⟨begun, joined, prior, -⟩ := segments_join (filled_of_segments above filled) below
    rw [above] at prior
    rw [joined, single, split, ← List.cons_append]
    exact (prior.trans kept).append (List.Sublist.refl _)

end Retracing

end EntitySchema.FilePath
