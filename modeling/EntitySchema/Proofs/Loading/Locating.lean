import EntitySchema.Proofs.Loading.Inlining
import EntitySchema.Proofs.Loading.Moving
import EntitySchema.Proofs.Loading.Visits

/-! Where errors are reported. An error arises in one text, that of a source or of a file it
includes at some depth, and at a place of that text. On its way out through the texts that
include each other it stays as it is. -/
namespace EntitySchema.Source

/-- How an error comes out of the text of a file, and the database that is left: from a fault of
the text itself, from a file included there that cannot be read, from within one that is read, or
from what comes behind one. -/
inductive Raised (source : FileSource) (options : LoadOptions) :
    String → TokenStream → Database → Error → Database → Prop
  | itself {name : String} {stream : TokenStream} {db after : Database} {fault : Fault} :
      advance stream db = (after, .failed fault) →
      Raised source options name stream db (fault.within name) after
  | unreadable {name : String} {stream rest : TokenStream} {db before : Database}
      {target : Token} {cause : Cause} :
      advance stream db = (before, .inclusion target rest) →
      before.hasFile (source.identity (options.fileName target.text)) = false →
      source.read (options.fileName target.text) = .error cause →
      Raised source options name stream db ⟨cause, some (contextOf name target)⟩ before
  | inside {name : String} {stream rest : TokenStream} {db before after : Database}
      {target : Token} {bytes : List UInt8} {error : Error} :
      advance stream db = (before, .inclusion target rest) →
      before.hasFile (source.identity (options.fileName target.text)) = false →
      source.read (options.fileName target.text) = .ok bytes →
      Raised source options (options.fileName target.text) (.ofText (textOfUtf8Lossy bytes))
        (before.beginFile (source.identity (options.fileName target.text))) error after →
      Raised source options name stream db error after
  | behind {name : String} {stream rest : TokenStream} {db before middle after : Database}
      {target : Token} {visits : List Visit} {error : Error} :
      advance stream db = (before, .inclusion target rest) →
      Runs source options (.file (options.fileName target.text)) before visits (.ok () middle) →
      Raised source options name rest middle error after →
      Raised source options name stream db error after

section

variable {source : FileSource} {options : LoadOptions} {name : String} {stream : TokenStream}
  {db after : Database} {error : Error}

theorem Raised.isSome_context (raised : Raised source options name stream db error after) :
    error.context.isSome := by
  induction raised with
  | itself _ => rfl
  | unreadable _ _ _ => rfl
  | inside _ _ _ _ ih => exact ih
  | behind _ _ _ ih => exact ih

theorem locate_of_isSome {context : Context} (located : error.context.isSome) :
    error.locate context = error := by
  rw [Error.locate, if_pos located]

/-- What a task raises if it fails. A file that cannot be read is not located yet. -/
def Task.Raises (source : FileSource) (options : LoadOptions) (error : Error)
    (db after : Database) : Task → Prop
  | .text name stream => Raised source options name stream db error after
  | .file path =>
    db.hasFile (source.identity path) = false ∧
      ((∃ cause, source.read path = .error cause ∧ error = .ofCause cause ∧ after = db) ∨
        ∃ bytes, source.read path = .ok bytes ∧
          Raised source options path (.ofText (textOfUtf8Lossy bytes))
            (db.beginFile (source.identity path)) error after)
  | .root _ => True

theorem Runs.raises {task : Task} {visits : List Visit}
    (runs : Runs source options task db visits (.error error after)) :
    task.Raises source options error db after := by
  generalize failed : EStateM.Result.error error after = result at runs
  induction runs generalizing error after with
  | skipped _ => cases failed
  | unreadable unread absent =>
    cases failed
    exact ⟨unread, Or.inl ⟨_, absent, rfl, rfl⟩⟩
  | parsed unread found _ ih => exact ⟨unread, Or.inr ⟨_, found, ih failed⟩⟩
  | finished _ => cases failed
  | failed halted =>
    cases failed
    exact .itself halted
  | included halted inside _ _ ih => exact .behind halted inside (ih failed)
  | refused halted _ ih =>
    cases failed
    obtain ⟨unread, ⟨cause, absent, rfl, rfl⟩ | ⟨bytes, found, raised⟩⟩ := ih rfl
    · exact .unreadable halted unread absent
    · rw [locate_of_isSome raised.isSome_context]
      exact .inside halted unread found raised
  | ended _ _ => exact True.intro
  | stopped _ _ => exact True.intro

theorem Raised.exists_runs (raised : Raised source options name stream db error after) :
    ∃ visits, Runs source options (.text name stream) db visits (.error error after) := by
  induction raised with
  | itself halted => exact ⟨_, .failed halted⟩
  | unreadable halted unread absent => exact ⟨_, .refused halted (.unreadable unread absent)⟩
  | @inside name stream rest db before after target bytes error halted unread found raised ih =>
    obtain ⟨visits, runs⟩ := ih
    have refused : Runs source options (.text name stream) db _
        (.error (error.locate (contextOf name target)) after) :=
      .refused halted (.parsed unread found runs)
    rw [locate_of_isSome raised.isSome_context] at refused
    exact ⟨_, refused⟩
  | behind halted included _ ih =>
    obtain ⟨visits, runs⟩ := ih
    exact ⟨_, .included halted included runs⟩

theorem exists_runs_loadText (files : MemoryFiles) (options : LoadOptions) (name text : String)
    (db : Database) : ∃ visits, Runs files.source options (.text name (.ofText text)) db visits
      (loadText files.source options name text db) := by
  have holds := holds_memoryFiles files
  have few : unread files.contents.keys db ≤ files.source.nesting :=
    Nat.le_trans List.countP_le_length (Nat.le_of_eq (OrderedMap.length_keys _))
  exact exists_runs_text (fun path db => exists_runs_file holds files.source.nesting path)
    name (.ofText text) few

theorem loadText_eq_error_iff (files : MemoryFiles) (text : String) :
    loadText files.source options name text db = .error error after ↔
      Raised files.source options name (.ofText text) db error after := by
  obtain ⟨visits, runs⟩ := exists_runs_loadText files options name text db
  constructor
  · intro failed
    rw [failed] at runs
    exact runs.raises
  · intro raised
    obtain ⟨others, again⟩ := raised.exists_runs
    exact (runs.unique again).2

/-- Places that stay, at the boundaries of a text. -/
def Stays (text : List Char) (place other : Place) : Prop :=
  other = place ∧ ∃ front back, text = front ++ back ∧ place = (Mark.start.after front).place

theorem stays_ofText (text : String) :
    (TokenStream.ofText text).Moved (Stays text.toList) (TokenStream.ofText text) :=
  Cursor.stream_moved fun front back split => ⟨rfl, front, back, split, rfl⟩

/-- A directive that halts the reading is the next inclusion of the stream. -/
theorem inclusions_of_advance {rest : TokenStream} {target : Token} {before : Database}
    (halted : advance stream db = (before, .inclusion target rest)) :
    ∃ keyword, inclusions stream = (keyword, target) :: inclusions rest := by
  fun_induction advance stream db with
  | case1 db token rest lineBreak ih =>
    rw [inclusions]
    simp only [lineBreak]
    exact ih halted
  | case3 db token rest string target after read =>
    cases halted
    refine ⟨token, ?_⟩
    rw [inclusions]
    simp only [string]
    split <;> simp_all
  | case4 db token rest string low high after read ih =>
    rw [inclusions]
    simp only [string]
    split <;> simp_all
  | case5 db token rest string head after read entity behind body ih =>
    rw [inclusions]
    simp only [string]
    split
    · simp_all
    · simp_all
    · rename_i same
      rw [read] at same
      cases same
      split <;> simp_all
    · simp_all
  | _ => cases halted

/-- A file that a text includes, with what is written in it. Texts go with their names. -/
def Includes (source : FileSource) (options : LoadOptions) :
    String × String → String × String → Prop
  | (_, text), (path, contents) =>
    ∃ inclusion ∈ inclusions (.ofText text), path = options.fileName inclusion.2.text ∧
      ∃ bytes, source.read path = .ok bytes ∧ contents = textOfUtf8Lossy bytes

/-- A text that an error is located in, and the place in it. -/
def LocatedIn (error : Error) : String × String → Prop
  | (name, text) => ∃ front back, text.toList = front ++ back ∧ error.context =
      some ⟨some name, some (Mark.start.after front).line, some (Mark.start.after front).column⟩

theorem Raised.exists_locatedIn (raised : Raised source options name stream db error after)
    {text : String} (stays : stream.Moved (Stays text.toList) stream)
    (included : inclusions stream ⊆ inclusions (.ofText text)) :
    ∃ file, Relation.ReflTransGen (Includes source options) (name, text) file ∧
      LocatedIn error file := by
  induction raised generalizing text with
  | @itself name stream db after fault halted =>
    have moved := (advance_moved stays db).2
    rw [halted] at moved
    obtain - | ⟨-, -, front, back, split, place⟩ := moved
    obtain ⟨line, column⟩ := Prod.mk.inj place
    refine ⟨(name, text), .refl, front, back, split, ?_⟩
    rw [Fault.within, line, column]
  | @unreadable name stream rest db before target cause halted unread absent =>
    have moved := (advance_moved stays db).2
    rw [halted] at moved
    obtain - | - | ⟨⟨-, front, back, split, place⟩, -⟩ := moved
    obtain ⟨line, column⟩ := Prod.mk.inj place
    refine ⟨(name, text), .refl, front, back, split, ?_⟩
    rw [contextOf, line, column]
  | @inside name stream rest db before after target bytes error halted unread found raised ih =>
    obtain ⟨keyword, next⟩ := inclusions_of_advance halted
    have member : (keyword, target) ∈ inclusions (.ofText text) := by
      apply included
      rw [next]
      exact List.mem_cons_self
    have first : Includes source options (name, text)
        (options.fileName target.text, textOfUtf8Lossy bytes) :=
      ⟨_, member, rfl, bytes, found, rfl⟩
    obtain ⟨file, further, located⟩ := ih (stays_ofText _) (List.Subset.refl _)
    exact ⟨file, .head first further, located⟩
  | @behind name stream rest db before middle after target visits error halted _ _ ih =>
    obtain ⟨keyword, next⟩ := inclusions_of_advance halted
    have moved := (advance_moved stays db).2
    rw [halted] at moved
    obtain - | - | ⟨-, stays⟩ := moved
    rw [next] at included
    exact ih stays fun inclusion member => included (List.mem_cons_of_mem _ member)

end

/-- An error that reading a source text comes to is raised in one of the texts that it includes
at some depth, or in itself, and is located at a boundary between characters there. It goes out
through the texts around it as it is. -/
theorem loadText_error_located (files : MemoryFiles) (options : LoadOptions) (name text : String)
    (db after : Database) (error : Error) :
    (loadText files.source options name text db = .error error after ↔
        Raised files.source options name (.ofText text) db error after) ∧
      (loadText files.source options name text db = .error error after →
        ∃ file, Relation.ReflTransGen (Includes files.source options) (name, text) file ∧
          LocatedIn error file) := by
  have raises := @loadText_eq_error_iff options name db after error files text
  refine ⟨raises, fun failed => ?_⟩
  exact (raises.mp failed).exists_locatedIn (stays_ofText text) (List.Subset.refl _)

namespace MissingInclude

def text : String := "\n@include \"missing\""

def target : Token := ⟨.string, "missing", ⟨10, 19, 2, 10⟩⟩

def error : Error := ⟨.fileNotFound "missing.fgd", some ⟨some "game.fgd", some 2, some 10⟩⟩

theorem ofText_text : TokenStream.ofText text =
    .token ⟨.newline, "\n", ⟨0, 1, 1, 1⟩⟩ (.token ⟨.string, "@include", ⟨1, 9, 2, 1⟩⟩
      (.token target (.exhausted ⟨19, 19, 2, 19⟩))) := by
  cbv

theorem raised :
    Raised MemoryFiles.empty.source .standard "game.fgd" (.ofText text) ∅ error ∅ := by
  have inclusion : Inclusion ⟨.string, "@include", ⟨1, 9, 2, 1⟩⟩ [target] target :=
    .intro rfl rfl ⟨[], rfl, nofun, rfl⟩
  have halted : advance (.ofText text) ∅ = (∅, .inclusion target (.exhausted ⟨19, 19, 2, 19⟩)) := by
    rw [ofText_text, advance_of_lineBreak rfl, advance_of_string rfl]
    have read := inclusion.readDirective (.exhausted ⟨19, 19, 2, 19⟩)
    rw [TokenStream.ahead_cons, TokenStream.ahead_nil] at read
    rw [read]
  have named : LoadOptions.standard.fileName target.text = "missing.fgd" := by decide
  have absent : MemoryFiles.empty.source.read (LoadOptions.standard.fileName target.text) =
      .error (.fileNotFound "missing.fgd") := by
    have none : MemoryFiles.empty.contents.get? (normalizePath "missing.fgd") = none :=
      OrderedMap.get?_eq_none_iff.mpr List.not_mem_nil
    rw [named]
    change MemoryFiles.empty.read "missing.fgd" = _
    rw [MemoryFiles.read, none]
  exact .unreadable halted rfl absent

end MissingInclude

/-- A file that is not there is reported where it is named. -/
theorem loadText_error_located_missingInclude :
    loadText MemoryFiles.empty.source .standard "game.fgd" MissingInclude.text ∅ =
        .error MissingInclude.error ∅ ∧
      ∃ file, Relation.ReflTransGen (Includes MemoryFiles.empty.source .standard)
          ("game.fgd", MissingInclude.text) file ∧ LocatedIn MissingInclude.error file := by
  obtain ⟨raises, located⟩ := loadText_error_located MemoryFiles.empty .standard "game.fgd"
    MissingInclude.text ∅ ∅ MissingInclude.error
  have failed := raises.mpr MissingInclude.raised
  exact ⟨failed, located failed⟩

end EntitySchema.Source
