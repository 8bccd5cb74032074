import EntitySchema.Disk.Opening
import EntitySchema.Proofs.Disk.Trees
import EntitySchema.Proofs.Folding

/-! What the identity of a path tells about the file it leads to. It is made of the solid
segments, with case left out; files in memory are found by it. A directory also heeds case, a
slash in front and what the path ends in, so that there it may stand for several files. -/
namespace EntitySchema

namespace Text

variable {c d : Char} {text before rest : List Char}

theorem ascii_marks : ∀ n < 0x80, (Char.ofNat n).toLower.toNat < 0x61 →
    (Char.ofNat n).toLower = Char.ofNat n := by
  decide

/-- Characters before the small letters, such as slashes and dots, are no lowercase forms but
their own. -/
theorem eq_of_mem_lowercaseChar (low : d.toNat < 0x61) (member : d ∈ lowercaseChar c) :
    c = d := by
  rcases lowercaseChar_cases c with ⟨ascii, form⟩ | ⟨-, form⟩ | ⟨range, listed, inside, form⟩ | form
  · rw [form, List.mem_singleton] at member
    have marks := ascii_marks c.toNat ascii
    rw [Char.ofNat_toNat, ← member] at marks
    exact (marks low).symm
  · rw [form, List.mem_pair] at member
    rcases member with rfl | rfl <;> exact absurd low (by decide)
  · rw [form, List.mem_singleton] at member
    have letters := (lowercaseRanges_images range listed).2.2.2
    rw [member, toNat_image listed inside] at low
    omega
  · rw [form, List.mem_singleton] at member
    exact member.symm

theorem eq_of_mem_lowercaseBetween (low : d.toNat < 0x61)
    (member : d ∈ lowercaseBetween before c rest) : c = d := by
  rw [lowercaseBetween] at member
  split at member
  · split at member
    · exact absurd low (List.mem_singleton.mp member ▸ by decide)
    · exact absurd low (List.mem_singleton.mp member ▸ by decide)
  · exact eq_of_mem_lowercaseChar low member

theorem mem_of_mem_lowercaseFrom (low : d.toNat < 0x61)
    (member : d ∈ lowercaseFrom before [] text) : d ∈ text := by
  induction text generalizing before with
  | nil => cases member
  | cons c text ih =>
    rw [lowercaseFrom_cons, List.mem_append] at member
    rcases member with first | later
    · exact eq_of_mem_lowercaseBetween low first ▸ List.mem_cons_self
    · exact List.mem_cons_of_mem _ (ih later)

theorem lowercase_eq_nil_iff : lowercase text = [] ↔ text = [] := by
  cases text with
  | nil => exact iff_of_true rfl rfl
  | cons c rest =>
    rw [lowercase, lowercaseFrom_cons]
    simp [lowercaseBetween_ne_nil]

theorem lowercase_eq_dot_iff : lowercase text = ['.'] ↔ text = ['.'] := by
  constructor
  · intro dot
    cases text with
    | nil => cases dot
    | cons c rest =>
      rw [lowercase, lowercaseFrom_cons, List.append_eq_singleton_iff] at dot
      rcases dot with ⟨none, -⟩ | ⟨first, others⟩
      · exact absurd none (lowercaseBetween_ne_nil _ _ _)
      · have same : c = '.' := eq_of_mem_lowercaseBetween (by decide) (first ▸ List.mem_cons_self)
        cases rest with
        | nil => rw [same]
        | cons d rest =>
          rw [lowercaseFrom_cons, List.append_eq_nil_iff] at others
          exact absurd others.1 (lowercaseBetween_ne_nil _ _ _)
  · rintro rfl
    decide

set_option maxRecDepth 20000 in
theorem parts_slash : Parts '/' where
  heeded := by decide
  uncased := by decide
  settled := by unfold Settled; decide

/-- Texts between slashes are folded one by one. -/
theorem lowercase_intercalate (row : List (List Char)) :
    lowercase (List.intercalate ['/'] row) = List.intercalate ['/'] (row.map lowercase) := by
  induction row with
  | nil => rfl
  | cons first row ih =>
    cases row with
    | nil => simp
    | cons next row =>
      rw [List.intercalate_cons_cons, List.map_cons, List.map_cons, List.intercalate_cons_cons,
        List.append_assoc, List.append_assoc, lowercase, List.singleton_append,
        lowercaseFrom_append parts_slash, ih]
      rfl

end Text

open FilePath

/-- A path with slashes in place of backslashes. -/
def slashed (path : String) : String :=
  String.ofList (path.toList.map fun c => if c = '\\' then '/' else c)

/-- The names along a path, whichever way it is spelled. -/
def pathNames (path : String) : List (List Char) := solid (segments (slashed path))

namespace FilePath

variable {path other : String} {row : List (List Char)} {segment : List Char}

theorem isVoid_lowercase (segment : List Char) :
    isVoid (Text.lowercase segment) = isVoid segment := by
  rw [Bool.eq_iff_iff]
  simp only [isVoid, Bool.or_eq_true, List.isEmpty_iff, beq_iff_eq, Text.lowercase_eq_nil_iff,
    Text.lowercase_eq_dot_iff]

theorem solid_map_lowercase (row : List (List Char)) :
    solid (row.map Text.lowercase) = (solid row).map Text.lowercase := by
  rw [solid, List.filter_map]
  refine congrArg _ (List.filter_congr fun segment _ => ?_)
  rw [Function.comp_apply, isVoid_lowercase]

theorem apart_lowercase (apart : '/' ∉ segment) : '/' ∉ Text.lowercase segment :=
  mt (Text.mem_of_mem_lowercaseFrom (by decide)) apart

theorem splitOn_lowercase (path : String) :
    (Text.lowercase path.toList).splitOn '/' = (segments path).map Text.lowercase := by
  have joined : path.toList = List.intercalate ['/'] (segments path) :=
    (List.intercalate_splitOn '/').symm
  rw [joined, Text.lowercase_intercalate, List.splitOn_intercalate '/']
  · rw [List.forall_mem_map]
    exact fun segment inside => apart_lowercase (apart_segments path segment inside)
  · simpa using segments_ne_nil path

/-- The identity of a path is made of the names along it. -/
theorem normalizePath_eq (path : String) :
    normalizePath path = ofSegments ((pathNames path).map Text.lowercase) := by
  have spelled : path.toList.map (fun c => if c = '\\' then '/' else c) = (slashed path).toList :=
    String.toList_ofList.symm
  have keeps : (fun segment : List Char => !segment.isEmpty && segment != ['.']) =
      fun segment => !isVoid segment := by
    funext segment
    rw [isVoid, Bool.not_or, bne]
  rw [normalizePath]
  simp only [spelled, keeps, splitOn_lowercase]
  rw [pathNames, ← solid_map_lowercase]
  rfl

/-- Solid segments are found again in the path that they make. -/
theorem solid_segments_ofSegments (apart : ∀ segment ∈ row, '/' ∉ segment)
    (firm : solid row = row) : solid (segments (ofSegments row)) = row := by
  cases row with
  | nil => rfl
  | cons first row => rw [segments_ofSegments apart (List.cons_ne_nil _ _), firm]

theorem solid_segments_normalizePath (path : String) :
    solid (segments (normalizePath path)) = (pathNames path).map Text.lowercase := by
  have names : solid (pathNames path) = pathNames path := by
    rw [pathNames, solid, solid, List.filter_filter]
    simp
  rw [normalizePath_eq]
  refine solid_segments_ofSegments (List.forall_mem_map.mpr fun segment inside => ?_) ?_
  · exact apart_lowercase (apart_segments _ _ (List.mem_of_mem_filter inside))
  · rw [solid_map_lowercase, names]

/-- Paths have the same identity if and only if they are the same names up to case. -/
theorem normalizePath_eq_iff : normalizePath path = normalizePath other ↔
    (pathNames path).map Text.lowercase = (pathNames other).map Text.lowercase := by
  constructor
  · intro same
    rw [← solid_segments_normalizePath, same, solid_segments_normalizePath]
  · intro same
    rw [normalizePath_eq, normalizePath_eq, same]

/-- Whether what a path leads to has to be a directory. -/
def endsVoid (path : String) : Bool := (segments path).getLast?.any isVoid

/-- Paths along the same solid segments, begun and ended in the same way. -/
structure Parallel (path other : String) : Prop where
  solid : solid (segments path) = solid (segments other)
  anchor : isAbsolute path = isAbsolute other
  ending : endsVoid path = endsVoid other
  empty : path = "" ↔ other = ""

theorem join_ne_empty {root : String} (filled : root ≠ "") (relative : isAbsolute path = false) :
    join root path ≠ "" := by
  have full : root.isEmpty = false := by simpa using filled
  rw [join, relative, full, Bool.false_or, if_neg Bool.false_ne_true]
  split <;> simp [String.append_eq_empty_iff, filled]

/-- Below a directory they stay so. -/
theorem Parallel.join (parallel : Parallel path other) (root : String) :
    Parallel (join root path) (join root other) := by
  obtain ⟨same, anchor, ending, empty⟩ := parallel
  by_cases filled : root = ""
  · rw [filled, join_empty, join_empty]
    exact ⟨same, anchor, ending, empty⟩
  · cases absolute : isAbsolute other with
    | true =>
      rw [FilePath.join, FilePath.join, anchor, absolute, Bool.true_or, if_pos rfl, if_pos rfl]
      exact ⟨same, anchor, ending, empty⟩
    | false =>
      rw [absolute] at anchor
      obtain ⟨front, split, -, led⟩ := segments_join filled anchor
      obtain ⟨begun, others, -, came⟩ := segments_join filled absolute
      have empty := iff_of_false (join_ne_empty filled anchor) (join_ne_empty filled absolute)
      refine ⟨?_, ?_, ?_, empty⟩
      · rw [split, others, solid_append, solid_append, led, came, same]
      · rw [isAbsolute_join filled anchor, isAbsolute_join filled absolute]
      · rw [endsVoid, endsVoid, split, others,
          List.getLast?_append_of_ne_nil _ (segments_ne_nil path),
          List.getLast?_append_of_ne_nil _ (segments_ne_nil other)]
        exact ending

end FilePath

namespace FileTree

variable {tree : FileTree} {place : Place} {path other : String}

theorem walk_of_void {segment : List Char} (void : isVoid segment) :
    tree.walk place [segment] = tree.walk place [[]] := by
  rw [walk, walk]
  simp only [void, if_true]
  rfl

/-- Where a path leads depends on its solid segments, and on whether it ends in one. -/
theorem walk_segments (tree : FileTree) (place : Place) (path : String) :
    tree.walk place (segments path) =
      tree.walk place (solid (segments path) ++ if endsVoid path then [[]] else []) := by
  obtain ⟨front, last, parts⟩ := (List.eq_nil_or_concat' _).resolve_left (segments_ne_nil path)
  have ending : endsVoid path = isVoid last := by
    rw [endsVoid, parts, List.getLast?_concat]
    rfl
  rw [parts, walk_solid, solid_append, ending]
  cases firm : isVoid last with
  | true =>
    have none : solid [last] = [] := solid_cons_of_void firm
    rw [none, List.append_nil, if_pos rfl, walk_append, walk_append]
    simp only [walk_of_void firm]
  | false =>
    have one : solid [last] = [last] := solid_cons_of_solid firm
    rw [one, if_neg Bool.false_ne_true, List.append_nil]

theorem admit?_of_parallel (parallel : Parallel path other)
    (fits : (utf8 path).length ≤ 4095 ↔ (utf8 other).length ≤ 4095) :
    admit? path = admit? other := by
  have nul : ∀ {path other : String}, solid (segments path) = solid (segments other) →
      '\x00' ∈ path.toList → '\x00' ∈ other.toList := by
    intro path other same inside
    rcases mem_solid_of_mem inside with slash | dot | ⟨segment, there, nul⟩
    · cases slash
    · cases dot
    · exact mem_of_mem_solid (same ▸ there) nul
  have clean : path.toList.contains '\x00' = other.toList.contains '\x00' := by
    rw [Bool.eq_iff_iff, List.contains_iff_mem, List.contains_iff_mem]
    exact ⟨nul parallel.solid, nul parallel.solid.symm⟩
  have empty : path.isEmpty = other.isEmpty := by
    rw [Bool.eq_iff_iff, String.isEmpty_iff, String.isEmpty_iff]
    exact parallel.empty
  have long : ((utf8 path).length > 4095) = ((utf8 other).length > 4095) := by
    rw [gt_iff_lt, gt_iff_lt, ← Nat.not_le, ← Nat.not_le, fits]
  simp only [admit?, clean, empty, long, parallel.anchor]

/-- What is read depends on nothing else. -/
theorem read_of_parallel (parallel : Parallel path other)
    (fits : (utf8 path).length ≤ 4095 ↔ (utf8 other).length ≤ 4095) :
    tree.read path = tree.read other := by
  rw [read, read, admit?_of_parallel parallel fits, walk_segments tree .root path,
    walk_segments tree .root other, parallel.solid, parallel.ending]

end FileTree

/-- What a source of files makes of an outcome, for the path it has looked under. -/
def reported (path : String) : Except FileProblem (List UInt8) → Except Cause (List UInt8)
  | .ok bytes => .ok bytes
  | .error .notFound => .error (.fileNotFound path)
  | .error problem => .error (.io (path ++ ": " ++ problem.message))

theorem Disk.read_directory (disk : Disk) (root path : String) :
    (disk.directory root).read path =
      reported (pathBelow root path) (disk.read (pathBelow root path)) := by
  simp only [Disk.directory]
  cases disk.read (pathBelow root path) with
  | ok bytes => rfl
  | error problem => cases problem <;> rfl

/-- What files in memory hold is the same for all paths of one identity. -/
theorem MemoryFiles.exists_reported (files : MemoryFiles) {path other : String}
    (same : normalizePath path = normalizePath other) :
    ∃ outcome, files.read path = reported path outcome ∧
      files.read other = reported other outcome := by
  rw [read, read, same]
  cases files.contents.get? (normalizePath other) with
  | some bytes => exact ⟨.ok bytes, rfl, rfl⟩
  | none => exact ⟨.error .notFound, rfl, rfl⟩

/-- Paths of which a directory heeds nothing that their identities leave out: no two names at
the same place differ in case only, and the paths begin and end alike. -/
structure Comparable (root path other : String) : Prop where
  names : ∀ (i : Nat), ∀ name ∈ (pathNames path)[i]?, ∀ otherName ∈ (pathNames other)[i]?,
    Text.lowercase name = Text.lowercase otherName → name = otherName
  anchor : isAbsolute (slashed path) = isAbsolute (slashed other)
  ending : endsVoid (slashed path) = endsVoid (slashed other)
  empty : slashed path = "" ↔ slashed other = ""
  fits : (utf8 (pathBelow root path)).length ≤ 4095 ↔ (utf8 (pathBelow root other)).length ≤ 4095

theorem Comparable.parallel {root path other : String} (comparable : Comparable root path other)
    (same : normalizePath path = normalizePath other) :
    Parallel (slashed path) (slashed other) := by
  suffices names : pathNames path = pathNames other from
    ⟨names, comparable.anchor, comparable.ending, comparable.empty⟩
  have folded := normalizePath_eq_iff.mp same
  have long : (pathNames path).length = (pathNames other).length := by
    simpa using congrArg List.length folded
  refine List.ext_getElem long fun i inside there => ?_
  have equal : ((pathNames path).map Text.lowercase)[i]? =
      ((pathNames other).map Text.lowercase)[i]? := by rw [folded]
  rw [List.getElem?_map, List.getElem?_map, List.getElem?_eq_getElem inside,
    List.getElem?_eq_getElem there] at equal
  exact comparable.names i _ (List.getElem?_eq_getElem inside) _ (List.getElem?_eq_getElem there)
    (Option.some.inj equal)

/-- Files in memory read the same under all paths of one identity. Those of a directory do so
for paths that are comparable; what differs then is the path that a failure states. -/
theorem reads_of_identity (path other : String) :
    (∀ files : MemoryFiles, files.source.identity path = files.source.identity other →
        ∃ outcome, files.source.read path = reported path outcome ∧
          files.source.read other = reported other outcome) ∧
      ∀ (tree : FileTree) (root : String),
        (tree.disk.directory root).identity path = (tree.disk.directory root).identity other →
          Comparable root path other →
            ∃ outcome,
              (tree.disk.directory root).read path = reported (pathBelow root path) outcome ∧
              (tree.disk.directory root).read other =
                reported (pathBelow root other) outcome := by
  refine ⟨fun files same => files.exists_reported same, ?_⟩
  intro tree root same comparable
  have full : Parallel (pathBelow root path) (pathBelow root other) :=
    (comparable.parallel same).join root
  have read : tree.disk.read (pathBelow root path) = tree.disk.read (pathBelow root other) :=
    FileTree.read_of_parallel full comparable.fits
  exact ⟨_, by rw [Disk.read_directory, read], Disk.read_directory tree.disk root other⟩

namespace Lettered

/-- Two files, with names that are equal up to case. -/
def files : FileTree :=
  ⟨[(["A.fgd"], utf8 "@mapsize(0, 1)"), (["a.fgd"], utf8 "@mapsize(0, 2)")], []⟩

end Lettered

/-- Another spelling of a path leads to the same file. -/
theorem reads_of_identity_respelled :
    (Lettered.files.disk.directory ".").identity "A.fgd" =
        (Lettered.files.disk.directory ".").identity ".\\A.fgd" ∧
      Comparable "." "A.fgd" ".\\A.fgd" ∧
      ∃ outcome,
        (Lettered.files.disk.directory ".").read "A.fgd" =
          reported (pathBelow "." "A.fgd") outcome ∧
        (Lettered.files.disk.directory ".").read ".\\A.fgd" =
          reported (pathBelow "." ".\\A.fgd") outcome := by
  have same : (Lettered.files.disk.directory ".").identity "A.fgd" =
      (Lettered.files.disk.directory ".").identity ".\\A.fgd" := by decide
  have names : pathNames "A.fgd" = pathNames ".\\A.fgd" := by decide
  have comparable : Comparable "." "A.fgd" ".\\A.fgd" := by
    refine ⟨fun i name inside otherName there _ => ?_, by decide, by decide, by decide, by decide⟩
    rw [names] at inside
    exact Option.some.inj (inside.symm.trans there)
  exact ⟨same, comparable, (reads_of_identity _ _).2 _ _ same comparable⟩

/-- One identity stands for two files, of which the second is not read once the first is. -/
theorem identity_confuses :
    (Lettered.files.disk.directory ".").identity "A.fgd" =
        (Lettered.files.disk.directory ".").identity "a.fgd" ∧
      (Lettered.files.disk.directory ".").read "A.fgd" = .ok (utf8 "@mapsize(0, 1)") ∧
      (Lettered.files.disk.directory ".").read "a.fgd" = .ok (utf8 "@mapsize(0, 2)") ∧
      utf8 "@mapsize(0, 1)" ≠ utf8 "@mapsize(0, 2)" := by
  decide

end EntitySchema
