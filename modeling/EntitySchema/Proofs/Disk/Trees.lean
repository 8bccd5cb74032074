import EntitySchema.Disk.FileTree
import EntitySchema.Proofs.Disk.Paths
import EntitySchema.Proofs.Outcome

/-! Reading files in a tree. What is read depends on the solid segments of a path only, as long
as the path ends in one of them. -/
namespace EntitySchema.FileTree

open FilePath

variable {tree : FileTree} {place : Place} {path other : String} {bytes : List UInt8}
  {row : List (List Char)} {segment last : List Char}

theorem admit?_eq_ok_iff : admit? path = .ok () ↔
    '\x00' ∉ path.toList ∧ path ≠ "" ∧ (utf8 path).length ≤ 4095 ∧ isAbsolute path = false := by
  rw [admit?]
  split
  · rename_i nul
    simp [List.contains_iff_mem.mp nul]
  · rename_i clean
    split
    · rename_i empty
      simp [String.isEmpty_iff.mp empty]
    · rename_i filled
      split
      · rename_i long
        simp [Nat.not_le.mpr long]
      · rename_i short
        have fits := Nat.not_lt.mp short
        cases absolute : isAbsolute path with
        | true => simp
        | false => simp_all

theorem read_eq_ok_iff : tree.read path = .ok bytes ↔ admit? path = .ok () ∧
    ∃ place, tree.walk .root (segments path) = .ok place ∧
      tree.nodeAt? place = some (.file bytes) := by
  rw [read, bind_eq_ok_iff]
  simp only [bind_eq_ok_iff]
  constructor
  · rintro ⟨⟨⟩, admitted, place, led, found⟩
    refine ⟨admitted, place, led, ?_⟩
    split at found
    · rename_i node
      cases found
      exact node
    · cases found
    · cases found
  · rintro ⟨admitted, place, led, node⟩
    refine ⟨(), admitted, place, led, ?_⟩
    rw [node]
    rfl

theorem walk_append (tree : FileTree) (place : Place) (front back : List (List Char)) :
    tree.walk place (front ++ back) =
      tree.walk place front >>= fun place => tree.walk place back := by
  induction front generalizing place with
  | nil => rw [walk]; rfl
  | cons segment front ih =>
    rw [List.cons_append, walk, walk]
    cases tree.nodeAt? place with
    | none => rfl
    | some node =>
      cases node with
      | file _ => rfl
      | directory =>
        dsimp only
        split
        · exact ih place
        · split
          · exact ih place.up
          · cases enter place segment with
            | ok inner => exact ih inner
            | error problem => rfl

/-- A void segment in front of others is passed over: it asks for a directory, and so does the
segment behind it. -/
theorem walk_cons_of_void (void : isVoid segment) (more : row ≠ []) :
    tree.walk place (segment :: row) = tree.walk place row := by
  obtain ⟨next, rest, rfl⟩ := List.exists_cons_of_ne_nil more
  rw [walk]
  cases node : tree.nodeAt? place with
  | none => rw [walk, node]
  | some found =>
    cases found with
    | file _ => rw [walk, node]
    | directory => simp only [void, if_true]

theorem walk_solid (tree : FileTree) (place : Place) (row : List (List Char)) (last : List Char) :
    tree.walk place (row ++ [last]) = tree.walk place (solid row ++ [last]) := by
  induction row generalizing place with
  | nil => rfl
  | cons segment row ih =>
    cases firm : isVoid segment with
    | true => rw [List.cons_append, walk_cons_of_void firm (by simp), solid_cons_of_void firm, ih]
    | false =>
      have first : ∀ row, tree.walk place (segment :: row) =
          tree.walk place [segment] >>= fun place => tree.walk place row :=
        walk_append tree place [segment]
      rw [solid_cons_of_solid firm, List.cons_append, List.cons_append, first,
        first (solid row ++ _)]
      simp only [ih]

/-- The path of a file ends in a solid segment. -/
theorem exists_last_of_read (found : tree.read path = .ok bytes) :
    ∃ last, (segments path).getLast? = some last ∧ isVoid last = false := by
  obtain ⟨-, place, led, node⟩ := read_eq_ok_iff.mp found
  obtain ⟨front, last, parts⟩ := (List.eq_nil_or_concat' _).resolve_left (segments_ne_nil path)
  refine ⟨last, by rw [parts, List.getLast?_concat], ?_⟩
  by_contra void
  rw [Bool.not_eq_false] at void
  rw [parts, walk_append, bind_eq_ok_iff] at led
  obtain ⟨before, -, led⟩ := led
  rw [walk] at led
  cases stands : tree.nodeAt? before with
  | none => simp [stands] at led
  | some standing =>
    cases standing with
    | file _ => simp [stands] at led
    | directory =>
      simp only [stands, void, if_true, walk, Except.ok.injEq] at led
      subst led
      cases stands.symm.trans node

/-- A file is found along every path that leads along the same solid segments. -/
theorem read_of_retraces (retraces : Retraces path other) (short : (utf8 path).length ≤ 4095)
    (found : tree.read other = .ok bytes) : tree.read path = .ok bytes := by
  obtain ⟨last, ending, firm⟩ := exists_last_of_read found
  obtain ⟨admitted, place, led, node⟩ := read_eq_ok_iff.mp found
  obtain ⟨clean, -, -, -⟩ := admit?_eq_ok_iff.mp admitted
  have same := retraces.last.trans ending
  refine read_eq_ok_iff.mpr ⟨admit?_eq_ok_iff.mpr ⟨fun nul => ?_, ?_, short, retraces.relative⟩,
    place, ?_, node⟩
  · rcases mem_solid_of_mem nul with slash | dot | ⟨segment, inside, there⟩
    · cases slash
    · cases dot
    · rw [retraces.solid] at inside
      exact clean (mem_of_mem_solid inside there)
  · exact filled_of_ending same firm
  · obtain ⟨front, parts⟩ := List.getLast?_eq_some_iff.mp same
    obtain ⟨before, others⟩ := List.getLast?_eq_some_iff.mp ending
    have alike := retraces.solid
    rw [parts, others, solid_append, solid_append, List.append_cancel_right_eq] at alike
    rw [parts, walk_solid, alike, ← walk_solid, ← others]
    exact led

end EntitySchema.FileTree
