import EntitySchema.Disk.Opening
import EntitySchema.Proofs.Disk.Trees
import EntitySchema.Proofs.Linking
import EntitySchema.Proofs.Loading.Directives
import EntitySchema.Proofs.Utf8

/-! Opening source files. A path is read to see what kind of file it leads to. The text is read
from a path of its own, which is made from the directory for includes and a name cut out of
the first path. Only where that leads back to the file is the text that of the file. -/
namespace EntitySchema

open FilePath

section Loading

variable {source : FileSource} {options : LoadOptions} {name : String} {bytes : List UInt8}

/-- Reads the text of a root file with everything that is included there. -/
def Source.loadRoot (source : FileSource) (options : LoadOptions) (path text : String) :
    Loading Unit := do
  loadStream options (includeFile source options (source.nesting - 1)) path (.ofText text)
  if options.linksBases then linkLoaded

/-- The database that the text of a root file gives. -/
def Source.readRoot (source : FileSource) (options : LoadOptions) (path text : String) :
    Except Error Database :=
  match loadRoot source options path text ((∅ : Database).beginFile (source.identity path)) with
  | .ok () db => .ok db
  | .error error _ => .error error

theorem Source.loadNew_of_read (deep : 0 < source.nesting)
    (found : source.read (options.fileName name) = .ok bytes) :
    loadNew source options name =
      readRoot source options (options.fileName name) (textOfUtf8Lossy bytes) := by
  obtain ⟨depth, more⟩ : ∃ depth, source.nesting = depth + 1 := ⟨source.nesting - 1, by omega⟩
  have read : includeFile source options source.nesting (options.fileName name) ∅ =
      loadStream options (includeFile source options (source.nesting - 1)) (options.fileName name)
        (.ofText (textOfUtf8Lossy bytes))
        ((∅ : Database).beginFile (source.identity (options.fileName name))) := by
    rw [more]
    exact includeFile_of_read rfl found
  have same : load source options name ∅ =
      loadRoot source options (options.fileName name) (textOfUtf8Lossy bytes)
        ((∅ : Database).beginFile (source.identity (options.fileName name))) := bind_of_same read
  rw [loadNew, same]
  rfl

theorem Source.loadNew_of_unreadable {cause : Cause}
    (absent : source.read (options.fileName name) = .error cause) :
    loadNew source options name = .error (.ofCause cause) := by
  have failed : load source options name ∅ = .error (.ofCause cause) ∅ :=
    bind_of_failed (includeFile_of_unreadable rfl absent)
  rw [loadNew, failed]

end Loading

/-- The name, below its root directory, of the file whose text is read for an input. -/
def sourceName (input : String) (root : Option String) : String :=
  LoadOptions.standard.fileName (nameBelow (rootOf input root) input)

/-- An input that is found again by the name it is loaded under: this name has the ending of
source files and no backslashes, and a root that is given leads to the input. -/
structure Traceable (input : String) (root : Option String) : Prop where
  ending : sourceName input root = nameBelow (rootOf input root) input
  slashed : '\\' ∉ (nameBelow (rootOf input root) input).toList
  below : ∀ directory ∈ root, (strip? input directory).isSome ∧
    (utf8 (join directory (nameBelow directory input))).length ≤ 4095

namespace FileTree

variable {tree : FileTree} {input : String} {bytes : List UInt8} {root : Option String}

theorem nesting_pos (tree : FileTree) : 0 < tree.disk.nesting := by
  have grows : ∀ (sizes : List Nat) (start : Nat), start ≤ sizes.foldl (· + ·) start := by
    intro sizes
    induction sizes with
    | nil => exact Nat.le_refl
    | cons size sizes ih => exact fun start => Nat.le_trans (Nat.le_add_right _ _) (ih _)
  exact grows _ 1

theorem pathBelow_of_slashed {directory name : String} (slashed : '\\' ∉ name.toList) :
    pathBelow directory name = join directory name := by
  have kept : name.toList.map (fun c => if c = '\\' then '/' else c) = name.toList := by
    refine (List.map_congr_left fun c inside => ?_).trans (List.map_id _)
    exact if_neg fun same : c = '\\' => slashed (same ▸ inside)
  rw [pathBelow, kept, String.ofList_toList]

/-- An input is below its root, and what is joined to the root again is not too long a path. -/
theorem strip?_of_traceable (found : tree.read input = .ok bytes) (trace : Traceable input root) :
    strip? input (rootOf input root) = some (nameBelow (rootOf input root) input) ∧
      (utf8 (join (rootOf input root) (nameBelow (rootOf input root) input))).length ≤ 4095 := by
  obtain ⟨last, ending, firm⟩ := exists_last_of_read found
  obtain ⟨-, -, short, relative⟩ := admit?_eq_ok_iff.mp (read_eq_ok_iff.mp found).1
  cases root with
  | none =>
    obtain ⟨directory, above, stripped, inside⟩ := exists_parent relative ending firm
    have same : rootOf input none = directory := by rw [rootOf, above]; rfl
    have named : nameBelow directory input = String.ofList last := by rw [nameBelow, stripped]
    rw [same, named]
    refine ⟨stripped, Nat.le_trans (List.Sublist.length_le ?_) short⟩
    rw [← ofSegments_segments (join directory _), ← ofSegments_segments input]
    rw [utf8, utf8, ofSegments, ofSegments, String.toList_ofList, String.toList_ofList]
    exact (intercalate_sublist inside).flatMap _
  | some directory =>
    obtain ⟨stripped, fits⟩ := trace.below directory rfl
    obtain ⟨name, stripped⟩ := Option.isSome_iff_exists.mp stripped
    have same : rootOf input (some directory) = directory := rfl
    have named : nameBelow directory input = name := by rw [nameBelow, stripped]
    rw [same]
    refine ⟨by rw [stripped, named], fits⟩

/-- The input is what is read again. -/
theorem read_of_traceable (found : tree.read input = .ok bytes) (trace : Traceable input root) :
    (tree.disk.directory (rootOf input root)).read (sourceName input root) = .ok bytes := by
  obtain ⟨last, ending, firm⟩ := exists_last_of_read found
  obtain ⟨-, -, -, relative⟩ := admit?_eq_ok_iff.mp (read_eq_ok_iff.mp found).1
  obtain ⟨stripped, fits⟩ := strip?_of_traceable found trace
  have named : nameBelow (rootOf input root) input ≠ "" := by
    -- an empty name would be given the ending of source files
    intro empty
    have ending := trace.ending
    rw [sourceName, empty] at ending
    revert ending
    decide
  have again := read_of_retraces (retraces_of_strip relative ending firm stripped named) fits found
  have path : pathBelow (rootOf input root) (nameBelow (rootOf input root) input) =
      join (rootOf input root) (nameBelow (rootOf input root) input) :=
    pathBelow_of_slashed trace.slashed
  have same : tree.disk.read = tree.read := rfl
  rw [trace.ending]
  simp only [Disk.directory, path]
  rw [same, again]

/-- Opening a source file reads the text of the file that is named after the input, and fails
if that cannot be read. If the input is traceable, this is the text of the input itself. -/
theorem openDatabase_of_read (found : tree.read input = .ok bytes)
    (plain : Compact.magic.isPrefixOf bytes = false) :
    (∀ cause, (tree.disk.directory (rootOf input root)).read (sourceName input root) =
          .error cause →
        tree.disk.openDatabase input root = .error (.ofCause cause)) ∧
      (∀ content, (tree.disk.directory (rootOf input root)).read (sourceName input root) =
          .ok content →
        tree.disk.openDatabase input root =
          Source.readRoot (tree.disk.directory (rootOf input root)) .standard
            (sourceName input root) (textOfUtf8Lossy content)) ∧
      (Traceable input root →
        (tree.disk.directory (rootOf input root)).read (sourceName input root) = .ok bytes ∧
        tree.disk.openDatabase input root =
          Source.readRoot (tree.disk.directory (rootOf input root)) .standard
            (sourceName input root) (textOfUtf8Lossy bytes)) := by
  have opens : tree.disk.openDatabase input root =
      Source.loadNew (tree.disk.directory (rootOf input root)) .standard
        (nameBelow (rootOf input root) input) := by
    have same : tree.disk.read input = .ok bytes := found
    rw [Disk.openDatabase, same]
    simp only [plain, Bool.false_eq_true, if_false]
  have reads : ∀ content,
      (tree.disk.directory (rootOf input root)).read (sourceName input root) = .ok content →
      tree.disk.openDatabase input root =
        Source.readRoot (tree.disk.directory (rootOf input root)) .standard
          (sourceName input root) (textOfUtf8Lossy content) := by
    intro content there
    rw [sourceName] at there ⊢
    rw [opens, Source.loadNew_of_read tree.nesting_pos there]
  refine ⟨fun cause absent => ?_, reads, fun trace => ?_⟩
  · rw [sourceName] at absent
    rw [opens, Source.loadNew_of_unreadable absent]
  · have again := read_of_traceable found trace
    exact ⟨again, reads bytes again⟩

namespace Namesakes

/-- Files of one name in two directories. -/
def files : FileTree :=
  ⟨[(["a", "game.fgd"], utf8 "@mapsize(0, 1)"), (["b", "game.fgd"], utf8 "@mapsize(0, 2)")], []⟩

def sized (bounds : String) : TokenStream :=
  .ahead [⟨.string, "@mapsize", ⟨0, 8, 1, 1⟩⟩, ⟨.parenArgs, bounds, ⟨8, 14, 1, 9⟩⟩]
    (.exhausted ⟨14, 14, 1, 15⟩)

theorem ofText_one : TokenStream.ofText "@mapsize(0, 1)" = sized "0, 1" := by
  cbv

theorem ofText_two : TokenStream.ofText "@mapsize(0, 2)" = sized "0, 2" := by
  cbv

theorem read_a : files.read "a/game.fgd" = .ok (utf8 "@mapsize(0, 1)") := by
  decide

theorem readRoot_sized {text bounds : String} {low high : Int64}
    (spelled : TokenStream.ofText text = sized bounds)
    (numbers : Source.mapSize? bounds = some (low, high)) (root : String) :
    Source.readRoot (files.disk.directory root) .standard "game.fgd" text =
      .ok ⟨∅, low, high, ["game.fgd"]⟩ := by
  have stated : Source.Stated [⟨.string, "@mapsize", ⟨0, 8, 1, 1⟩⟩,
      ⟨.parenArgs, bounds, ⟨8, 14, 1, 9⟩⟩] (·.setMapSize low high) :=
    .mapSize rfl (.mapSize (by decide) ⟨[], rfl, nofun, rfl⟩ numbers)
  have identity : (files.disk.directory root).identity "game.fgd" = "game.fgd" := by
    change normalizePath "game.fgd" = "game.fgd"
    decide
  have begun : (∅ : Database).beginFile "game.fgd" = ⟨∅, 0, 0, ["game.fgd"]⟩ := rfl
  have loaded : Source.loadRoot (files.disk.directory root) .standard "game.fgd" text
      ⟨∅, 0, 0, ["game.fgd"]⟩ = .ok () ⟨∅, low, high, ["game.fgd"]⟩ := by
    rw [Source.loadRoot, spelled]
    refine (bind_of_ran (Source.loadStream_of_loaded (.stated stated .done))).trans ?_
    change Source.linkLoaded ⟨∅, low, high, ["game.fgd"]⟩ = _
    rw [Source.linkLoaded_eq, Database.linkBases_of_empty rfl]
  rw [Source.readRoot, identity, begun, loaded]

theorem readRoot_one (root : String) :
    Source.readRoot (files.disk.directory root) .standard "game.fgd" "@mapsize(0, 1)" =
      .ok ⟨∅, 0, 1, ["game.fgd"]⟩ := readRoot_sized ofText_one (by decide) root

theorem readRoot_two (root : String) :
    Source.readRoot (files.disk.directory root) .standard "game.fgd" "@mapsize(0, 2)" =
      .ok ⟨∅, 0, 2, ["game.fgd"]⟩ := readRoot_sized ofText_two (by decide) root

end Namesakes

/-- A root that is spelled in another way than in the input makes no difference. -/
theorem openDatabase_of_read_dotted :
    Namesakes.files.read "a/game.fgd" = .ok (utf8 "@mapsize(0, 1)") ∧
      Traceable "a/game.fgd" (some "a/.") ∧
      Namesakes.files.disk.openDatabase "a/game.fgd" (some "a/.") =
        .ok ⟨∅, 0, 1, ["game.fgd"]⟩ := by
  have trace : Traceable "a/game.fgd" (some "a/.") := by
    refine ⟨by decide, by decide, ?_⟩
    rintro directory ⟨⟩
    decide
  have named : sourceName "a/game.fgd" (some "a/.") = "game.fgd" := by decide
  obtain ⟨-, -, same⟩ := openDatabase_of_read Namesakes.read_a (by decide)
  obtain ⟨-, opened⟩ := same trace
  refine ⟨Namesakes.read_a, trace, ?_⟩
  rw [opened, named, textOfUtf8Lossy_utf8, Namesakes.readRoot_one]

/-- Under a root that it is not below, the file of its name is read in place of the input. -/
theorem openDatabase_reads_namesake :
    Namesakes.files.read "a/game.fgd" = .ok (utf8 "@mapsize(0, 1)") ∧
      Compact.magic.isPrefixOf (utf8 "@mapsize(0, 1)") = false ∧
      Namesakes.files.disk.openDatabase "a/game.fgd" (some "b") = .ok ⟨∅, 0, 2, ["game.fgd"]⟩ ∧
      Source.readRoot (Namesakes.files.disk.directory "b") .standard "game.fgd"
        "@mapsize(0, 1)" = .ok ⟨∅, 0, 1, ["game.fgd"]⟩ := by
  have plain : Compact.magic.isPrefixOf (utf8 "@mapsize(0, 1)") = false := by decide
  have found : Namesakes.files.disk.read "a/game.fgd" = .ok (utf8 "@mapsize(0, 1)") :=
    Namesakes.read_a
  have named : nameBelow "b" "a/game.fgd" = "game.fgd" := by decide
  have spelled : LoadOptions.standard.fileName "game.fgd" = "game.fgd" := by decide
  have other : (Namesakes.files.disk.directory "b").read
      (LoadOptions.standard.fileName "game.fgd") = .ok (utf8 "@mapsize(0, 2)") := by
    rw [spelled]
    decide
  refine ⟨Namesakes.read_a, plain, ?_, ?_⟩
  · rw [Disk.openDatabase, found]
    simp only [plain, Bool.false_eq_true, if_false, rootOf, Option.getD_some, named]
    rw [Source.loadNew_of_read Namesakes.files.nesting_pos other, spelled, textOfUtf8Lossy_utf8,
      Namesakes.readRoot_two]
  · exact Namesakes.readRoot_one "b"

end FileTree
end EntitySchema
