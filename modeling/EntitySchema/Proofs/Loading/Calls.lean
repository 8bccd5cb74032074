import EntitySchema.Proofs.Loading.Databases
import EntitySchema.Source.Loading
import Mathlib

/-! Reading files into a database, one after the other and with all they include. Whatever
is read and wherever it fails, the database it leaves behind is well-formed. -/
namespace EntitySchema

/-- The database that a computation leaves behind, whether it fails or not. -/
def Loading.leaves (loading : Loading Unit) (db : Database) : Database :=
  match loading db with
  | .ok _ after => after
  | .error _ after => after

namespace Source

/-- Reading that keeps a database sound. -/
def Safe (loading : Loading Unit) : Prop := ∀ db : Database, db.Sound → (loading.leaves db).Sound

/-- Heads of classes come with well-formed classes, yet without members. -/
def Directive.Fresh : Directive → Prop
  | .classHead head => head.Fresh
  | .includeFile _ | .mapSize _ _ => True

theorem fresh_readDirective (keyword : Token) : Yields (readDirective keyword) Directive.Fresh := by
  rw [readDirective]
  split
  · exact Yields.trivial.bind fun target _ => .pure True.intro
  · refine Yields.trivial.bind fun token _ => ?_
    split
    · exact .pure True.intro
    · exact .throw _
  · split
    · split
      · exact (EntityClass.Fresh.readHead _).bind fun head fresh => .pure fresh
      · exact .throw _
    · exact .throw _

/-- The induction follows the stream, with the database as it is by then. -/
theorem safe_loadStream {options : LoadOptions} {includeFile : String → Loading Unit}
    (includes : ∀ path, Safe (includeFile path)) (name : String) (stream : TokenStream) :
    Safe (loadStream options includeFile name stream) := by
  intro db sound
  rw [Loading.leaves]
  fun_induction loadStream options includeFile name stream db with
  | case1 db token rest lineBreak ih => exact ih sound
  | case3 db token rest string target after read included ran ih =>
    have kept := includes (options.fileName target.text) db sound
    rw [Loading.leaves, ran] at kept
    exact ih kept
  | case4 db token rest string target after read error failed ran =>
    have kept := includes (options.fileName target.text) db sound
    rw [Loading.leaves, ran] at kept
    exact kept
  | case5 db token rest string low high after read ih => exact ih (sound.of_classes rfl)
  | case6 db token rest string head after read entity behind body ih =>
    have fresh := Grammar.fresh_readBody (fresh_readDirective token _ _ _ read) after
    rw [body] at fresh
    exact ih (sound.define fresh)
  | case7 db token rest string head after read entity fault behind body =>
    -- a class whose body is at fault is stored all the same
    have fresh := Grammar.fresh_readBody (fresh_readDirective token _ _ _ read) after
    rw [body] at fresh
    exact sound.define fresh
  | _ => exact sound

theorem beginFile_of_unread {db : Database} {identity : String}
    (unread : db.hasFile identity = false) :
    db.beginFile identity = { db with files := db.files ++ [identity] } := by
  rw [Database.beginFile, unread, if_neg Bool.false_ne_true]

theorem hasFile_beginFile (db : Database) (identity : String) :
    (db.beginFile identity).hasFile identity = true := by
  cases known : db.hasFile identity with
  | true => rwa [Database.beginFile, known, if_pos rfl]
  | false => simp [beginFile_of_unread known, Database.hasFile]

section

variable {source : FileSource} {options : LoadOptions} {depth : Nat} {path : String}
  {db : Database}

theorem includeFile_of_known (known : db.hasFile (source.identity path) = true) :
    includeFile source options depth path db = .ok () db := by
  rw [includeFile]
  simp only [known, if_true]

theorem includeFile_of_unreadable {cause : Cause}
    (unread : db.hasFile (source.identity path) = false)
    (absent : source.read path = .error cause) :
    includeFile source options depth path db = .error (.ofCause cause) db := by
  rw [includeFile]
  simp only [unread, absent, Bool.false_eq_true, if_false]

theorem includeFile_of_read {bytes : List UInt8}
    (unread : db.hasFile (source.identity path) = false) (found : source.read path = .ok bytes) :
    includeFile source options (depth + 1) path db =
      loadStream options (includeFile source options depth) path
        (.ofText (textOfUtf8Lossy bytes)) (db.beginFile (source.identity path)) := by
  rw [includeFile]
  simp only [unread, found, Bool.false_eq_true, if_false]

end

/-- Including a file changes nothing, or begins it and reads what it says. -/
theorem leaves_includeFile (source : FileSource) (options : LoadOptions) (depth : Nat)
    (path : String) (db : Database) :
    (includeFile source options depth path).leaves db = db ∨
      ∃ smaller bytes, depth = smaller + 1 ∧ (includeFile source options depth path).leaves db =
        (loadStream options (includeFile source options smaller) path
          (.ofText (textOfUtf8Lossy bytes))).leaves (db.beginFile (source.identity path)) := by
  cases known : db.hasFile (source.identity path) with
  | true =>
    left
    rw [Loading.leaves, includeFile_of_known known]
  | false =>
    cases found : source.read path with
    | error cause =>
      left
      rw [Loading.leaves, includeFile_of_unreadable known found]
    | ok bytes =>
      cases depth with
      | zero =>
        left
        simp [Loading.leaves, includeFile, known, found]
      | succ smaller =>
        refine Or.inr ⟨smaller, bytes, rfl, ?_⟩
        rw [Loading.leaves, includeFile_of_read known found]
        rfl

/-- Files may include each other however deeply. -/
theorem safe_includeFile (source : FileSource) (options : LoadOptions) (depth : Nat)
    (path : String) : Safe (includeFile source options depth path) := by
  induction depth generalizing path with
  | zero =>
    intro db sound
    rcases leaves_includeFile source options 0 path db with same | ⟨smaller, bytes, deeper, -⟩
    · rwa [same]
    · cases deeper
  | succ depth ih =>
    intro db sound
    rcases leaves_includeFile source options (depth + 1) path db with
      same | ⟨smaller, bytes, deeper, same⟩
    · rwa [same]
    · cases deeper
      rw [same]
      refine safe_loadStream ih path _ _ (sound.of_classes ?_)
      rw [Database.beginFile]
      split <;> rfl

theorem linkLoaded_eq (db : Database) : linkLoaded db =
    match db.linkBases.2 with
    | none => .ok () db.linkBases.1
    | some problem => .error (.ofCause (.semantic problem)) db.linkBases.1 := by
  rw [linkLoaded]
  rcases db.linkBases with ⟨after, _ | problem⟩ <;> rfl

theorem linkLoaded_eq_ok_iff {db after : Database} :
    linkLoaded db = .ok () after ↔ db.linkBases = (after, none) := by
  rw [linkLoaded]
  rcases db.linkBases with ⟨linked, _ | problem⟩ <;> simp

theorem safe_linkLoaded : Safe linkLoaded := by
  intro db sound
  rw [Loading.leaves, linkLoaded_eq]
  cases db.linkBases.2 with
  | none => exact sound.linkBases
  | some problem => exact sound.linkBases

theorem safe_bind {first : Loading Unit} {second : Unit → Loading Unit} (before : Safe first)
    (after : Safe (second ())) : Safe (first >>= second) := by
  intro db sound
  have kept := before db sound
  rw [Loading.leaves] at kept ⊢
  change (match EStateM.bind first second db with
    | .ok _ after => after
    | .error _ after => after).Sound
  unfold EStateM.bind
  cases ran : first db with
  | ok _ middle =>
    rw [ran] at kept
    exact after middle kept
  | error error middle =>
    rw [ran] at kept
    exact kept

theorem safe_load (source : FileSource) (options : LoadOptions) (name : String) :
    Safe (load source options name) := by
  apply safe_bind (safe_includeFile source options source.nesting _)
  split
  · exact safe_linkLoaded
  · exact fun db sound => sound

theorem safe_loadText (source : FileSource) (options : LoadOptions) (name text : String) :
    Safe (loadText source options name text) :=
  safe_loadStream (safe_includeFile source options source.nesting) name _

section

variable {options : LoadOptions} {includeFile : String → Loading Unit} {name : String}
  {token : Token} {rest after behind : TokenStream} {head entity : EntityClass}

/-- A block that is read to its end is defined before anything behind it is read. -/
theorem loadStream_of_block (string : token.kind = .string)
    (read : readDirective token rest = .ok (.classHead head) after)
    (body : Grammar.readBody head after = (entity, .ok () behind)) (db : Database) :
    loadStream options includeFile name (.token token rest) db =
      loadStream options includeFile name behind (db.define entity) := by
  rw [loadStream]
  simp only [string]
  split
  · simp_all
  · simp_all
  · rename_i same
    rw [read] at same
    cases same
    split <;> simp_all
  · simp_all

theorem loadStream_of_class {last : Token} (string : token.kind = .string)
    (bracket : last.kind = .bracketClose)
    (read : readDirective token rest = .ok (.classHead head) (.token last behind))
    (db : Database) :
    loadStream options includeFile name (.token token rest) db =
      loadStream options includeFile name behind (db.define head) := by
  have body : Grammar.readBody head (.token last behind) = (head, .ok () behind) := by
    rw [Grammar.readBody]
    simp only [bracket]
  exact loadStream_of_block string read body db

end

/-- After a load that links bases and succeeds, no base waits. -/
theorem linked_of_load {source : FileSource} {options : LoadOptions} {name : String}
    {db after : Database} (links : options.linksBases = true)
    (loaded : load source options name db = .ok () after) :
    ∀ entity ∈ after.classes.values, ∀ base ∈ entity.bases, ∃ id, base = .linked id := by
  obtain ⟨_, middle, -, linked⟩ := exists_of_bind loaded
  rw [if_pos links, linkLoaded_eq_ok_iff] at linked
  have linkedAll := Database.Sound.linked_of_clear (congrArg Prod.snd linked)
  rwa [linked] at linkedAll

/-- What a single text is parsed to is well-formed, and no base of it waits. -/
theorem sound_of_parse {text : String} {db : Database} (parsed : parse text = .ok db) :
    db.Sound ∧ ∀ entity ∈ db.classes.values, ∀ base ∈ entity.bases, ∃ id, base = .linked id := by
  rw [parse] at parsed
  split at parsed
  · rename_i after ran
    cases parsed
    obtain ⟨_, middle, read, linked⟩ := exists_of_bind ran
    rw [linkLoaded_eq_ok_iff] at linked
    have sound := safe_loadText MemoryFiles.empty.source .standard "<string>" text ∅ .empty
    rw [Loading.leaves, read] at sound
    have linkedSound := sound.linkBases
    have linkedAll := Database.Sound.linked_of_clear (congrArg Prod.snd linked)
    rw [linked] at linkedSound linkedAll
    exact ⟨linkedSound, linkedAll⟩
  · cases parsed

end Source

/-- A call that reads into a database. -/
inductive Call where
  | load (source : FileSource) (options : LoadOptions) (name : String)
  | loadText (source : FileSource) (options : LoadOptions) (name text : String)

/-- What a call does. -/
def Call.run : Call → Loading Unit
  | .load source options name => Source.load source options name
  | .loadText source options name text => Source.loadText source options name text

/-- The database that is left after a row of calls, of which any may fail. -/
def Call.runAll (calls : List Call) : Database :=
  calls.foldl (fun db call => call.run.leaves db) ∅

theorem sound_runAll (calls : List Call) : (Call.runAll calls).Sound := by
  have step : ∀ (call : Call) (db : Database), db.Sound → (call.run.leaves db).Sound := by
    intro call db sound
    cases call with
    | load source options name => exact Source.safe_load source options name db sound
    | loadText source options name text =>
      exact Source.safe_loadText source options name text db sound
  have run : ∀ db : Database, db.Sound →
      (calls.foldl (fun db call => call.run.leaves db) db).Sound := by
    induction calls with
    | nil => exact fun db sound => sound
    | cons call calls ih => exact fun db sound => ih _ (step call db sound)
  exact run ∅ .empty

/-- Whatever calls are made on one database, and whether they succeed or fail, it is
well-formed after each of them; and no base waits after a load that links bases and
succeeds. -/
theorem wellFormed_runAll (calls : List Call) :
    (Call.runAll calls).WellFormed ∧
      ∀ source options name after, options.linksBases = true →
        Source.load source options name (Call.runAll calls) = .ok () after →
        ∀ entity ∈ after.classes.values, ∀ base ∈ entity.bases, ∃ id, base = .linked id := by
  constructor
  · exact (sound_runAll calls).wellFormed
  · intro source options name after links loaded
    exact Source.linked_of_load links loaded

namespace TwoClasses

/-- Files that are all blank. -/
def blank : FileSource := ⟨id, fun _ => .ok [], 1⟩

def options : LoadOptions := ⟨"", true⟩

def text : String := "@baseclass=A[] @pointclass base(a)=B[]"

def word (text : String) (start : Nat) : Token :=
  ⟨.string, text, ⟨start, start + text.utf8ByteSize, 1, start + 1⟩⟩

def symbol (kind : TokenKind) (text : String) (start stop : Nat) : Token :=
  ⟨kind, text, ⟨start, stop, 1, start + 1⟩⟩

def first : List Token :=
  [symbol .equals "=" 10 11, word "A" 11, symbol .bracketOpen "[" 12 13]

def second : List Token :=
  [word "base" 27, symbol .parenArgs "a" 31 34, symbol .equals "=" 34 35, word "B" 35,
    symbol .bracketOpen "[" 36 37]

def afterSecond : TokenStream :=
  .token (symbol .bracketClose "]" 37 38) (.exhausted ⟨38, 38, 1, 39⟩)

def afterFirst : TokenStream :=
  .token (symbol .bracketClose "]" 13 14)
    (.token (word "@pointclass" 15) (.ahead second afterSecond))

theorem ofText_text :
    TokenStream.ofText text = .token (word "@baseclass" 0) (.ahead first afterFirst) := by
  cbv

def a : EntityClass := { EntityClass.plain .base "" with name := trimmed "A" }

def b : EntityClass :=
  { EntityClass.plain .point "" with
    bases := [.named (fold (trimmed "a"))], name := trimmed "B" }

theorem loadText_text :
    Source.loadText blank options "two" text ∅ = .ok () (((∅ : Database).define a).define b) := by
  have headA : Source.readDirective (word "@baseclass" 0) (.ahead first afterFirst) =
      .ok (.classHead a) afterFirst := rfl
  have headB : Source.readDirective (word "@pointclass" 15) (.ahead second afterSecond) =
      .ok (.classHead b) afterSecond := rfl
  rw [Source.loadText, ofText_text, Source.loadStream_of_class rfl rfl headA,
    Source.loadStream_of_class rfl rfl headB, Source.loadStream]

theorem load_main {db : Database} (unread : db.hasFile "main" = false)
    (clear : (db.beginFile "main").linkBases.2 = none) :
    Source.load blank options "main" db = .ok () (db.beginFile "main").linkBases.1 := by
  have empty : TokenStream.ofText (textOfUtf8Lossy []) = .exhausted ⟨0, 0, 1, 1⟩ := by cbv
  have read : Source.includeFile blank options 1 (options.fileName "main") db =
      .ok () (db.beginFile "main") := by
    have named : options.fileName "main" = "main" := rfl
    rw [named]
    simp only [Source.includeFile, blank, id, unread, empty]
    exact Source.loadStream.eq_def ..
  refine (bind_of_ran read).trans ?_
  change Source.linkLoaded (db.beginFile "main") = _
  rw [Source.linkLoaded_eq, clear]

/-- Every class of the two can be linked. -/
theorem clear_linkBases :
    ((((∅ : Database).define a).define b).beginFile "main").linkBases.2 = none := by
  apply Database.linkFrom_succeeds
  intro j key entity _ found
  have member := OrderedMap.mem_toList_of_entryAt? found
  rw [Database.beginFile, if_neg (by decide)] at member ⊢
  rcases OrderedMap.mem_toList_insert member with same | member
  · cases same
    have keys : (((∅ : Database).define a).define b).classes.keys = ["a", "b"] := by
      rw [Database.define, OrderedMap.keys_insert, Database.define, OrderedMap.keys_insert]
      decide
    have position : (((∅ : Database).define a).define b).classes.position?
        (fold (fold (trimmed "a"))) = some 0 := by
      rw [OrderedMap.position?_eq_some_iff, keys]
      decide
    have id : ∃ id, (((∅ : Database).define a).define b).idOf? (fold (trimmed "a")) = some id :=
      ⟨_, Option.map_eq_some_iff.mpr ⟨0, position, rfl⟩⟩
    obtain ⟨id, known⟩ := id
    exact ⟨_, EntityClass.linkBases_eq_ok_iff.mpr ⟨[.linked id], .cons (.named known) .nil, rfl⟩⟩
  · rcases OrderedMap.mem_toList_insert member with same | member
    · cases same
      exact ⟨_, EntityClass.linkBases_eq_ok_iff.mpr ⟨[], .nil, rfl⟩⟩
    · cases member
end TwoClasses

theorem wellFormed_runAll_twoClasses :
    ∃ after, Source.load TwoClasses.blank TwoClasses.options "main"
        (Call.runAll [.loadText TwoClasses.blank TwoClasses.options "two" TwoClasses.text]) =
          .ok () after ∧
      ∀ entity ∈ after.classes.values, ∀ base ∈ entity.bases, ∃ id, base = .linked id := by
  have ran := TwoClasses.load_main (by rfl) TwoClasses.clear_linkBases
  have left : Call.runAll [.loadText TwoClasses.blank TwoClasses.options "two" TwoClasses.text] =
      ((∅ : Database).define TwoClasses.a).define TwoClasses.b := by
    change Loading.leaves (Source.loadText _ _ _ _) ∅ = _
    rw [Loading.leaves, TwoClasses.loadText_text]
  rw [← left] at ran
  exact ⟨_, ran, (wellFormed_runAll _).2 _ _ _ _ rfl ran⟩

end EntitySchema
