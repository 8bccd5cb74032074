import EntitySchema.Proofs.Linking
import EntitySchema.Proofs.Loading.Locating
import EntitySchema.Proofs.Utf8

/-! Loading a root file again, on the database that a first load has left. A file is recorded
before its text is read, and what is recorded is not read again. So the second load can only
link bases, unless the file could not be read in the first place. -/
namespace EntitySchema.Source

variable {source : FileSource} {options : LoadOptions} {name : String} {db : Database}

/-- What a load does once its root file has been read. -/
def finish (options : LoadOptions) : Loading Unit :=
  if options.linksBases then linkLoaded else pure ()

theorem load_of_known (known : db.hasFile (source.identity (options.fileName name)) = true) :
    load source options name db = finish options db :=
  bind_of_ran (includeFile_of_known known)

theorem linkLoaded_left (db : Database) : linkLoaded (left (linkLoaded db)) = linkLoaded db := by
  have remains : left (linkLoaded db) = db.linkBases.1 := by
    rw [linkLoaded_eq]
    cases db.linkBases.2 <;> rfl
  rw [remains, linkLoaded_eq, Database.linkBases_linkBases, ← linkLoaded_eq]

theorem finish_left (options : LoadOptions) (db : Database) :
    finish options (left (finish options db)) = finish options db := by
  rw [finish]
  split
  · exact linkLoaded_left db
  · rfl

theorem hasFile_finish (options : LoadOptions) (db : Database) (identity : String) :
    (left (finish options db)).hasFile identity = db.hasFile identity := by
  rw [finish]
  split
  · rw [Database.hasFile, files_linkLoaded, Database.hasFile]
  · rfl

/-- Nothing is reported by linking that says where in a file it is. -/
theorem context_of_finish {error : Error} {after : Database}
    (failed : finish options db = .error error after) : error.context = none := by
  rw [finish] at failed
  split at failed
  · rw [linkLoaded_eq] at failed
    split at failed
    · cases failed
    · cases failed
      rfl
  · cases failed

/-- A database is finished without an error exactly if every base that waits in it can be
linked, or none is to be. -/
theorem finish_succeeds_iff : (∃ after, finish options db = .ok () after) ↔
    (options.linksBases = true → ∀ entity ∈ db.classes.values, ∀ base ∈ entity.names,
      fold base ∈ db.classes.keys) := by
  rw [← Database.linkBases_clear_iff, finish]
  split
  · rename_i links
    rw [linkLoaded_eq]
    cases db.linkBases.2 <;> simp [links]
  · rename_i keeps
    exact ⟨fun _ links => absurd links keeps, fun _ => ⟨db, rfl⟩⟩

theorem hasFile_of_subset {later : Database} {identity : String}
    (known : db.hasFile identity = true) (grows : db.files ⊆ later.files) :
    later.hasFile identity = true := by
  simp only [Database.hasFile, List.contains_eq_mem, decide_eq_true_eq] at known ⊢
  exact grows known

/-- Once a file has been run it is recorded, unless it cannot be read. -/
theorem Runs.file_cases {path : String} {visits : List Visit}
    {result : EStateM.Result Error Database Unit}
    (runs : Runs source options (.file path) db visits result) :
    (left result).hasFile (source.identity path) = true ∧
        (∀ error after, result = .error error after → error.context.isSome) ∨
      ∃ cause, result = .error (.ofCause cause) db := by
  cases runs with
  | skipped known =>
    refine Or.inl ⟨known, fun error after failed => ?_⟩
    cases failed
  | unreadable _ _ => exact Or.inr ⟨_, rfl⟩
  | parsed _ _ text =>
    have recorded : (left result).hasFile (source.identity path) = true :=
      hasFile_of_subset (hasFile_beginFile db _) text.visited.subset
    refine Or.inl ⟨recorded, fun error after failed => ?_⟩
    rw [failed] at text
    exact text.raises.isSome_context

/-- How a load can go: its root file is known in the end and nothing is left to do but to
finish, or the file cannot be read, or there is an error somewhere in its text. -/
theorem load_cases (files : MemoryFiles) (options : LoadOptions) (name : String) (db : Database) :
    (∃ middle : Database, middle.hasFile (files.source.identity (options.fileName name)) = true ∧
        load files.source options name db = finish options middle) ∨
      (∃ cause, load files.source options name db = .error (.ofCause cause) db) ∨
      ∃ error after, after.hasFile (files.source.identity (options.fileName name)) = true ∧
        error.context.isSome ∧ load files.source options name db = .error error after := by
  have deep : files.contents.keys.length ≤ files.source.nesting :=
    Nat.le_of_eq (OrderedMap.length_keys _)
  obtain ⟨visits, runs⟩ : ∃ visits, Runs files.source options (.root name) db visits
      (load files.source options name db) := exists_runs_root (holds_memoryFiles files) deep name db
  generalize load files.source options name db = result at runs ⊢
  cases runs with
  | @ended _ _ middle _ inside =>
    left
    rcases inside.file_cases with ⟨known, -⟩ | ⟨cause, refused⟩
    · exact ⟨middle, known, rfl⟩
    · cases refused
  | @stopped _ error _ after _ inside =>
    right
    rcases inside.file_cases with ⟨known, located⟩ | ⟨cause, refused⟩
    · exact Or.inr ⟨error, after, known, located error after rfl, rfl⟩
    · exact Or.inl ⟨cause, refused⟩

/-- A load that succeeds, and one that fails because its root file cannot be read or a base
is unknown, do the same when they are repeated. A load that fails in a file is not
repeated: what comes next is as though it had been read to its end, and from then
on nothing changes any more. -/
theorem load_again (files : MemoryFiles) (options : LoadOptions) (name : String) (db : Database) :
    (∀ after, load files.source options name db = .ok () after →
        load files.source options name after = .ok () after) ∧
      (∀ error after, load files.source options name db = .error error after →
        error.context = none → load files.source options name after = .error error after) ∧
      ∀ error after, load files.source options name db = .error error after →
        error.context ≠ none →
          after.hasFile (files.source.identity (options.fileName name)) = true ∧
          load files.source options name after = finish options after ∧
          ((∃ again, load files.source options name after = .ok () again) ↔
            (options.linksBases = true → ∀ entity ∈ after.classes.values,
              ∀ base ∈ entity.names, fold base ∈ after.classes.keys)) ∧
          load files.source options name (left (load files.source options name after)) =
            load files.source options name after := by
  have finished : ∀ middle : Database,
      middle.hasFile (files.source.identity (options.fileName name)) = true →
      load files.source options name (left (finish options middle)) = finish options middle := by
    intro middle known
    rw [load_of_known ((hasFile_finish options middle _).trans known), finish_left]
  rcases load_cases files options name db with
    ⟨middle, known, loaded⟩ | ⟨cause, loaded⟩ | ⟨error, after, known, located, loaded⟩
  · have again := finished middle known
    rw [loaded]
    refine ⟨fun after same => ?_, fun error after same _ => ?_,
      fun error after same elsewhere => ?_⟩
    · rwa [same] at again
    · rwa [same] at again
    · exact absurd (context_of_finish same) elsewhere
  · rw [loaded]
    refine ⟨nofun, fun error after same _ => ?_, fun error after same elsewhere => ?_⟩
    · cases same
      exact loaded
    · cases same
      exact absurd rfl elsewhere
  · rw [loaded]
    refine ⟨nofun, fun error after same nowhere => ?_, fun error after same _ => ?_⟩
    · cases same
      rw [nowhere] at located
      cases located
    · cases same
      have again := load_of_known known
      rw [again]
      exact ⟨known, rfl, finish_succeeds_iff, finished after known⟩

namespace BadKeyword

def files : MemoryFiles := MemoryFiles.empty.add "game.fgd" (utf8 "hello")

def keyword : Token := ⟨.string, "hello", ⟨0, 5, 1, 1⟩⟩

def error : Error := ⟨.semantic (.badKeyword "hello"), some ⟨some "game.fgd", some 1, some 1⟩⟩

/-- The file is recorded, and nothing else has been kept of it. -/
def after : Database := (∅ : Database).beginFile "game.fgd"

theorem ofText_hello :
    TokenStream.ofText "hello" = .token keyword (.exhausted ⟨5, 5, 1, 6⟩) := by
  cbv

theorem toList_contents : files.contents.toList = [("game.fgd", utf8 "hello")] := by
  have normal : normalizePath "game.fgd" = "game.fgd" := by decide
  rw [files, MemoryFiles.add, normal, OrderedMap.toList_insert_of_not_mem List.not_mem_nil]
  rfl

theorem read_game : files.source.read "game.fgd" = .ok (utf8 "hello") := by
  have found : files.contents.get? (normalizePath "game.fgd") = some (utf8 "hello") :=
    OrderedMap.get?_of_toList (i := 0) (by rw [toList_contents]; decide)
  change files.read "game.fgd" = _
  rw [MemoryFiles.read, found]

theorem load_game : load files.source .standard "game.fgd" ∅ = .error error after := by
  have one : files.source.nesting = 1 := by
    change files.contents.size = 1
    rw [← OrderedMap.length_toList, toList_contents]
    rfl
  have named : LoadOptions.standard.fileName "game.fgd" = "game.fgd" := by decide
  have failed : includeFile files.source .standard 1 "game.fgd" ∅ = .error error after := by
    rw [includeFile_of_read rfl read_game, textOfUtf8Lossy_utf8, ofText_hello, loadStream]
    rfl
  rw [load, one, named]
  exact bind_of_failed failed

end BadKeyword

/-- The keyword is not met a second time. -/
theorem load_again_badKeyword :
    load BadKeyword.files.source .standard "game.fgd" ∅ =
        .error BadKeyword.error BadKeyword.after ∧
      BadKeyword.error.context ≠ none ∧
      ∃ again, load BadKeyword.files.source .standard "game.fgd" BadKeyword.after =
        .ok () again := by
  have located : BadKeyword.error.context ≠ none := by decide
  obtain ⟨-, -, failed⟩ := load_again BadKeyword.files .standard "game.fgd" ∅
  obtain ⟨-, -, succeeds, -⟩ := failed _ _ BadKeyword.load_game located
  exact ⟨BadKeyword.load_game, located, succeeds.mpr fun _ => nofun⟩

/-- The keyword is refused once. The same load succeeds on the database that is left. -/
theorem load_accepts_refused :
    load BadKeyword.files.source .standard "game.fgd" ∅ =
        .error BadKeyword.error BadKeyword.after ∧
      load BadKeyword.files.source .standard "game.fgd" BadKeyword.after =
        .ok () BadKeyword.after := by
  refine ⟨BadKeyword.load_game, ?_⟩
  have named : LoadOptions.standard.fileName "game.fgd" = "game.fgd" := by decide
  have known : BadKeyword.after.hasFile (normalizePath "game.fgd") = true := by decide
  rw [load_of_known (by rw [named]; exact known)]
  change linkLoaded BadKeyword.after = _
  rw [linkLoaded_eq, Database.linkBases_of_empty rfl]

end EntitySchema.Source
