import EntitySchema.Proofs.Loading.Running
import EntitySchema.Proofs.OrderedMap

/-! Which files are read, and in what order. A run meets files that have been read, files
that cannot be read, and files that it begins; it begins each at most once. That the loader
never nests includes more deeply than it allows for is counted in files that are still to be
read: each file that is begun leaves one less. -/
namespace EntitySchema.Source

/-- The database that an outcome leaves behind. -/
def left : EStateM.Result Error Database Unit → Database
  | .ok _ db => db
  | .error _ db => db

def Visit.path : Visit → String
  | .skipped path => path
  | .unreadable path => path
  | .parsed path => path

/-- The identities of the files whose texts are read, in order. -/
def parsedFiles (source : FileSource) (visits : List Visit) : List String :=
  visits.filterMap fun visit =>
    match visit with
    | .parsed path => some (source.identity path)
    | .skipped _ => none
    | .unreadable _ => none

/-- Visits to files, given the files read before and after them. -/
inductive Visited (source : FileSource) : List String → List Visit → List String → Prop
  | done {files : List String} : Visited source files [] files
  | skipped {path : String} {files after : List String} {visits : List Visit} :
      source.identity path ∈ files → Visited source files visits after →
      Visited source files (.skipped path :: visits) after
  | unreadable {path : String} {cause : Cause} {files after : List String}
      {visits : List Visit} :
      source.identity path ∉ files → source.read path = .error cause →
      Visited source files visits after → Visited source files (.unreadable path :: visits) after
  | parsed {path : String} {bytes : List UInt8} {files after : List String}
      {visits : List Visit} :
      source.identity path ∉ files → source.read path = .ok bytes →
      Visited source (files ++ [source.identity path]) visits after →
      Visited source files (.parsed path :: visits) after

variable {source : FileSource} {options : LoadOptions} {task : Task} {db : Database}
  {visits more : List Visit} {result : EStateM.Result Error Database Unit}
  {files middle after known : List String}

namespace Visited

theorem append (first : Visited source files visits middle)
    (last : Visited source middle more after) : Visited source files (visits ++ more) after := by
  induction first with
  | done => exact last
  | skipped old _ ih => exact .skipped old (ih last)
  | unreadable fresh absent _ ih => exact .unreadable fresh absent (ih last)
  | parsed fresh found _ ih => exact .parsed fresh found (ih last)

theorem files_eq (visited : Visited source files visits after) :
    after = files ++ parsedFiles source visits := by
  induction visited with
  | done => exact (List.append_nil _).symm
  | skipped _ _ ih => exact ih
  | unreadable _ _ _ ih => exact ih
  | parsed _ _ _ ih => rw [ih, List.append_assoc]; rfl

theorem subset (visited : Visited source files visits after) : files ⊆ after := by
  rw [visited.files_eq]
  exact List.subset_append_left _ _

/-- A file is begun once, and only if it has not been read before. -/
theorem fresh (visited : Visited source files visits after) :
    (parsedFiles source visits).Nodup ∧
      ∀ identity ∈ parsedFiles source visits, identity ∉ files := by
  induction visited with
  | done => exact ⟨List.nodup_nil, nofun⟩
  | skipped _ _ ih => exact ih
  | unreadable _ _ _ ih => exact ih
  | @parsed path bytes files after visits unread _ _ ih =>
    obtain ⟨distinct, new⟩ := ih
    refine ⟨List.nodup_cons.mpr ⟨fun again => ?_, distinct⟩, fun identity member => ?_⟩
    · exact new _ again (List.mem_append_right _ List.mem_cons_self)
    · rcases List.mem_cons.mp member with rfl | later
      · exact unread
      · exact fun old => new _ later (List.mem_append_left _ old)

end Visited

theorem not_mem_of_unread {identity : String} (unread : db.hasFile identity = false) :
    identity ∉ db.files := by
  simpa [Database.hasFile] using unread

theorem files_linkLoaded (db : Database) : (left (linkLoaded db)).files = db.files := by
  rw [linkLoaded_eq]
  have rest := congrArg Database.files (Database.linkFrom_rest db 0)
  cases db.linkBases.2 <;> exact rest

/-- What files are read and recorded on the way. -/
theorem Runs.visited (runs : Runs source options task db visits result) :
    Visited source db.files visits (left result).files := by
  induction runs with
  | @skipped path db known => exact .skipped (by simpa [Database.hasFile] using known) .done
  | unreadable unread absent => exact .unreadable (not_mem_of_unread unread) absent .done
  | @parsed path bytes db visits result unread found _ ih =>
    rw [beginFile_of_unread unread] at ih
    exact .parsed (not_mem_of_unread unread) found ih
  | @finished name stream db after halted =>
    rw [← files_of_advance halted]
    exact .done
  | @failed name stream fault db after halted =>
    rw [← files_of_advance halted]
    exact .done
  | @included name stream rest target db before middle visits more result halted _ _ first last =>
    rw [← files_of_advance halted]
    exact first.append last
  | @refused name stream rest target error db before after visits halted _ ih =>
    rw [← files_of_advance halted]
    exact ih
  | @ended name db after visits _ ih =>
    split
    · rw [files_linkLoaded]
      exact ih
    · exact ih
  | stopped _ ih => exact ih

/-- A source reads exactly the files of the given identities. -/
def Holds (source : FileSource) (known : List String) : Prop :=
  ∀ path, source.identity path ∈ known ↔ ∃ bytes, source.read path = .ok bytes

theorem eraseDups_filter (keep : String → Bool) (items : List String) :
    (items.filter keep).eraseDups = items.eraseDups.filter keep := by
  match items with
  | [] => rfl
  | item :: items =>
    rw [List.eraseDups_cons, List.filter_cons, List.filter_cons,
      ← eraseDups_filter keep (items.filter fun other => !other == item)]
    split
    · rw [List.eraseDups_cons, List.filter_filter, List.filter_filter]
      simp only [Bool.and_comm]
    · rename_i dropped
      rw [List.filter_filter]
      congr 1
      apply List.filter_congr
      intro other _
      by_cases same : other = item <;> simp [same, dropped]
termination_by items.length
decreasing_by exact Nat.lt_succ_of_le (List.length_filter_le _ _)

namespace Visited

theorem parsedFiles_subset (holds : Holds source known)
    (visited : Visited source files visits after) : parsedFiles source visits ⊆ known := by
  induction visited with
  | done => exact List.nil_subset _
  | skipped _ _ ih => exact ih
  | unreadable _ _ _ ih => exact ih
  | parsed _ found _ ih => exact List.cons_subset.mpr ⟨(holds _).mpr ⟨_, found⟩, ih⟩

theorem not_mem_of_unreadable (holds : Holds source known)
    (visited : Visited source files visits after) {path : String}
    (member : .unreadable path ∈ visits) : source.identity path ∉ after := by
  induction visited with
  | done => cases member
  | skipped _ _ ih => exact ih ((List.mem_cons.mp member).resolve_left nofun)
  | parsed _ _ _ ih => exact ih ((List.mem_cons.mp member).resolve_left nofun)
  | unreadable unread absent rest ih =>
    rcases List.mem_cons.mp member with same | later
    · cases same
      intro recorded
      rw [rest.files_eq] at recorded
      rcases List.mem_append.mp recorded with old | new
      · exact unread old
      · obtain ⟨bytes, found⟩ := (holds _).mp (rest.parsedFiles_subset holds new)
        cases absent.symm.trans found
    · exact ih later

/-- Files are begun where they are met first, if they are there and have not been read. -/
theorem parsedFiles_eq (holds : Holds source known) (visited : Visited source files visits after) :
    parsedFiles source visits =
      (visits.map fun visit => source.identity visit.path).eraseDups.filter
        fun identity => identity ∉ files ∧ identity ∈ known := by
  induction visited with
  | done => rfl
  | @skipped path files after visits old _ ih =>
    rw [← eraseDups_filter] at ih ⊢
    rw [List.map_cons, List.filter_cons, if_neg (by simp [Visit.path, old]), ← ih]
    rfl
  | @unreadable path cause files after visits unread absent _ ih =>
    have missing : source.identity path ∉ known := by
      rw [holds, absent]
      nofun
    rw [← eraseDups_filter] at ih ⊢
    rw [List.map_cons, List.filter_cons, if_neg (by simp [Visit.path, missing]), ← ih]
    rfl
  | @parsed path bytes files after visits unread found _ ih =>
    have there : source.identity path ∈ known := (holds path).mpr ⟨bytes, found⟩
    have begins : parsedFiles source (.parsed path :: visits) =
        source.identity path :: parsedFiles source visits := rfl
    rw [begins, ih, List.map_cons, List.eraseDups_cons, eraseDups_filter, List.filter_cons,
      if_pos (by simp [Visit.path, unread, there]), List.filter_filter]
    congr 1
    apply List.filter_congr
    intro identity _
    by_cases same : identity = source.identity path <;> simp [same, Visit.path]

end Visited

/-- The number of files that have not been read yet. -/
def unread (known : List String) (db : Database) : Nat :=
  known.countP fun identity => !db.hasFile identity

theorem unread_le {later : Database} (known : List String) (grows : db.files ⊆ later.files) :
    unread known later ≤ unread known db := by
  apply List.countP_mono_left
  intro identity _ fresh
  simp only [Database.hasFile, Bool.not_eq_true', List.contains_eq_mem,
    decide_eq_false_iff_not] at fresh ⊢
  exact fun old => fresh (grows old)

theorem unread_beginFile {identity : String} (there : identity ∈ known)
    (fresh : db.hasFile identity = false) :
    unread known (db.beginFile identity) < unread known db := by
  obtain ⟨front, back, rfl⟩ := List.append_of_mem there
  have begun := beginFile_of_unread fresh
  have grows : db.files ⊆ (db.beginFile identity).files := by
    rw [begun]
    exact List.subset_append_left _ _
  have recorded := hasFile_beginFile db identity
  have before := unread_le front grows
  have behind := unread_le back grows
  simp only [unread, List.countP_append, List.countP_cons, fresh, recorded] at before behind ⊢
  simp
  omega

theorem exists_runs_text {depth : Nat} (includes : ∀ path db, unread known db ≤ depth →
        ∃ visits, Runs source options (.file path) db visits
          (includeFile source options depth path db))
    (name : String) (stream : TokenStream) (few : unread known db ≤ depth) :
    ∃ visits, Runs source options (.text name stream) db visits
      (loadStream options (includeFile source options depth) name stream db) := by
  induction size : stream.length using Nat.strongRecOn generalizing stream db with
  | ind size ih =>
    rw [loadStream_eq]
    rcases halted : advance stream db with ⟨before, _ | fault | ⟨target, rest⟩⟩
    · exact ⟨[], .finished halted⟩
    · exact ⟨[], .failed halted⟩
    · have still : unread known before ≤ depth :=
        Nat.le_trans (unread_le known (by rw [files_of_advance halted]; exact fun _ => id)) few
      obtain ⟨visits, inside⟩ := includes (options.fileName target.text) before still
      dsimp only
      rcases included : includeFile source options depth (options.fileName target.text) before with
        ⟨⟨⟩, middle⟩ | ⟨error, after⟩
      · rw [included] at inside
        have fewer := Nat.le_trans (unread_le known inside.visited.subset) still
        obtain ⟨more, last⟩ := ih _ (size ▸ length_advance_lt halted) rest fewer rfl
        exact ⟨visits ++ more, .included halted inside last⟩
      · rw [included] at inside
        exact ⟨visits, .refused halted inside⟩

/-- A depth that is as large as the number of files still to be read is never exceeded. -/
theorem exists_runs_file (holds : Holds source known) (depth : Nat) (path : String)
    (few : unread known db ≤ depth) :
    ∃ visits, Runs source options (.file path) db visits
      (includeFile source options depth path db) := by
  induction depth using Nat.strongRecOn generalizing path db with
  | ind depth ih =>
    cases fresh : db.hasFile (source.identity path) with
    | true =>
      rw [includeFile_of_known fresh]
      exact ⟨_, .skipped fresh⟩
    | false =>
      cases found : source.read path with
      | error cause =>
        rw [includeFile_of_unreadable fresh found]
        exact ⟨_, .unreadable fresh found⟩
      | ok bytes =>
        -- a file that can be read and has not been read is one of those still to be read
        have fewer := unread_beginFile ((holds path).mpr ⟨bytes, found⟩) fresh
        obtain ⟨smaller, rfl⟩ : ∃ smaller, depth = smaller + 1 := ⟨depth - 1, by omega⟩
        rw [includeFile_of_read fresh found]
        obtain ⟨visits, runs⟩ := exists_runs_text
          (fun path db => ih smaller (Nat.lt_succ_self smaller) path) path
          (.ofText (textOfUtf8Lossy bytes)) (Nat.le_of_lt_succ (Nat.lt_of_lt_of_le fewer few))
        exact ⟨_, .parsed fresh found runs⟩

theorem exists_runs_root (holds : Holds source known) (deep : known.length ≤ source.nesting)
    (name : String) (db : Database) :
    ∃ visits, Runs source options (.root name) db visits (load source options name db) := by
  have few : unread known db ≤ source.nesting := Nat.le_trans List.countP_le_length deep
  obtain ⟨visits, runs⟩ : ∃ visits, Runs source options (.file (options.fileName name)) db visits
      (includeFile source options source.nesting (options.fileName name) db) :=
    exists_runs_file holds source.nesting _ few
  refine ⟨visits, ?_⟩
  cases ran : includeFile source options source.nesting (options.fileName name) db with
  | ok _ after =>
    rw [ran] at runs
    rw [load, bind_of_ran ran]
    exact .ended runs
  | error error after =>
    rw [ran] at runs
    rw [load, bind_of_failed ran]
    exact .stopped runs

theorem holds_memoryFiles (files : MemoryFiles) : Holds files.source files.contents.keys := by
  intro path
  change normalizePath path ∈ files.contents.keys ↔ ∃ bytes, files.read path = .ok bytes
  rw [MemoryFiles.read]
  cases found : files.contents.get? (normalizePath path) with
  | none => simpa using OrderedMap.get?_eq_none_iff.mp found
  | some bytes =>
    have there : normalizePath path ∈ files.contents.keys := by
      by_contra absent
      cases found.symm.trans (OrderedMap.get?_eq_none_iff.mpr absent)
    simpa using there

/-- However the files in memory include each other, loading one of them comes to an end in one
way. It adds to the files that had been read those that it meets for the first time, in
the order in which it meets them, and reads the text of each of these once; what cannot be
read is not recorded. -/
theorem load_reads_files_once (files : MemoryFiles) (options : LoadOptions) (name : String)
    (db : Database) :
    ∃ visits, (∀ row result, Runs files.source options (.root name) db row result ↔
        row = visits ∧ result = load files.source options name db) ∧
      ((load files.source options name).leaves db).files =
        db.files ++ parsedFiles files.source visits ∧
      (parsedFiles files.source visits).Nodup ∧
      (parsedFiles files.source visits =
        (visits.map fun visit => normalizePath visit.path).eraseDups.filter fun identity =>
          identity ∉ db.files ∧ identity ∈ files.contents.keys) ∧
      ∀ path, .unreadable path ∈ visits →
        normalizePath path ∉ ((load files.source options name).leaves db).files := by
  have holds := holds_memoryFiles files
  have deep : files.contents.keys.length ≤ files.source.nesting :=
    Nat.le_of_eq (OrderedMap.length_keys _)
  obtain ⟨visits, runs⟩ : ∃ visits, Runs files.source options (.root name) db visits
      (load files.source options name db) := exists_runs_root holds deep name db
  have visited := runs.visited
  refine ⟨visits, fun row result => ⟨fun again => again.unique runs, ?_⟩, visited.files_eq,
    visited.fresh.1, visited.parsedFiles_eq holds,
    fun path => visited.not_mem_of_unreadable holds⟩
  rintro ⟨rfl, rfl⟩
  exact runs

end EntitySchema.Source
