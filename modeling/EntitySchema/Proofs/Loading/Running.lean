import EntitySchema.Proofs.Loading.Calls

/-! Loading as it runs, however deeply files include each other. The directives between two
inclusions are read in one stride. An inclusion is run to its end before the text behind
it goes on, with the database that it has left. Nothing here counts how deep it goes. -/
namespace EntitySchema.Source

/-- Where the reading of directives halts. -/
inductive Halt where
  | finished
  | failed (fault : Fault)
  | inclusion (target : Token) (rest : TokenStream)

/-- Reads directives up to the next inclusion. -/
def advance (stream : TokenStream) (db : Database) : Database × Halt :=
  match stream with
  | .token token rest =>
    match token.kind with
    | .newline => advance rest db
    | .endOfInput => (db, .finished)
    | .string =>
      match _ : readDirective token rest with
      | .ok (.includeFile target) after => (db, .inclusion target after)
      | .ok (.mapSize low high) after => advance after (db.setMapSize low high)
      | .ok (.classHead head) after =>
        match _ : Grammar.readBody head after with
        | (entity, .ok () behind) => advance behind (db.define entity)
        | (entity, .error fault _) => (db.define entity, .failed fault)
      | .error fault _ => (db, .failed fault)
    | _ => (db, .failed token.unexpected)
  | .exhausted _ => (db, .finished)
  | .failed fault _ => (db, .failed fault)
termination_by stream.length
decreasing_by
  · simp [TokenStream.length]
  · exact Nat.lt_succ_of_le (consuming_readDirective _ _ _ _ ‹_›)
  · refine Nat.lt_succ_of_le (Nat.le_trans (@Grammar.length_readBody_le head _ _ ?_)
      (consuming_readDirective token _ _ _ ‹_›))
    rw [‹Grammar.readBody head after = _›]

theorem files_of_advance {stream : TokenStream} {db before : Database} {halt : Halt}
    (halted : advance stream db = (before, halt)) : before.files = db.files := by
  fun_induction advance stream db with
  | case1 db token rest lineBreak ih => exact ih halted
  | case4 db token rest string low high after read ih => exact ih halted
  | case5 db token rest string head after read entity behind body ih => exact ih halted
  | _ =>
    cases halted
    rfl

section

variable {token : Token} {rest : TokenStream} {db : Database}

theorem advance_of_lineBreak (lineBreak : token.kind = .newline) :
    advance (.token token rest) db = advance rest db := by
  rw [advance]
  simp only [lineBreak]

theorem advance_of_endOfInput (last : token.kind = .endOfInput) :
    advance (.token token rest) db = (db, .finished) := by
  rw [advance]
  simp only [last]

theorem advance_of_string (string : token.kind = .string) : advance (.token token rest) db =
    match readDirective token rest with
    | .ok (.includeFile target) after => (db, .inclusion target after)
    | .ok (.mapSize low high) after => advance after (db.setMapSize low high)
    | .ok (.classHead head) after =>
      match Grammar.readBody head after with
      | (entity, .ok () behind) => advance behind (db.define entity)
      | (entity, .error fault _) => (db.define entity, .failed fault)
    | .error fault _ => (db, .failed fault) := by
  rw [advance]
  simp only [string]
  cases readDirective token rest with
  | error fault after => rfl
  | ok directive after =>
    cases directive with
    | includeFile target => rfl
    | mapSize low high => rfl
    | classHead head =>
      dsimp only
      obtain ⟨entity, outcome⟩ := Grammar.readBody head after
      cases outcome <;> rfl

theorem advance_of_unexpected (notLineBreak : token.kind ≠ .newline)
    (notLast : token.kind ≠ .endOfInput) (notString : token.kind ≠ .string) :
    advance (.token token rest) db = (db, .failed token.unexpected) := by
  rw [advance]
  split <;> simp_all

end

theorem length_advance_lt {stream rest : TokenStream} {target : Token} {db before : Database}
    (halted : advance stream db = (before, .inclusion target rest)) :
    rest.length < stream.length := by
  fun_induction advance stream db with
  | case1 db token rest lineBreak ih => exact Nat.lt_succ_of_lt (ih halted)
  | case3 db token rest string target after read =>
    cases halted
    exact Nat.lt_succ_of_le (consuming_readDirective _ _ _ _ read)
  | case4 db token rest string low high after read ih =>
    have shorter := consuming_readDirective _ _ _ _ read
    exact Nat.lt_succ_of_lt (Nat.lt_of_lt_of_le (ih halted) shorter)
  | case5 db token rest string head after read entity behind body ih =>
    have shorter := consuming_readDirective _ _ _ _ read
    have further := @Grammar.length_readBody_le head after behind (by rw [body])
    exact Nat.lt_succ_of_lt (Nat.lt_of_lt_of_le (ih halted) (Nat.le_trans further shorter))
  | _ => cases halted

/-- A source text is read in strides, each up to the next inclusion. -/
theorem loadStream_eq {options : LoadOptions} {includeFile : String → Loading Unit}
    (name : String) (stream : TokenStream) (db : Database) :
    loadStream options includeFile name stream db =
      match advance stream db with
      | (after, .finished) => .ok () after
      | (after, .failed fault) => .error (fault.within name) after
      | (before, .inclusion target rest) =>
        match includeFile (options.fileName target.text) before with
        | .ok () middle => loadStream options includeFile name rest middle
        | .error error after => .error (error.locate (contextOf name target)) after := by
  fun_induction loadStream options includeFile name stream db with
  | case1 db token rest lineBreak ih => rw [advance_of_lineBreak lineBreak, ih]
  | case2 db token rest last => rw [advance_of_endOfInput last]
  | case3 db token rest string target after read middle included ih =>
    simp only [advance_of_string string, read, included]
  | case4 db token rest string target after read error behind refused =>
    simp only [advance_of_string string, read, refused]
  | case5 db token rest string low high after read ih =>
    simp only [advance_of_string string, read, ih]
  | case6 db token rest string head after read entity behind body ih =>
    simp only [advance_of_string string, read, body, ih]
  | case7 db token rest string head after read entity fault behind body =>
    simp only [advance_of_string string, read, body]
  | case8 db token rest string fault after read =>
    simp only [advance_of_string string, read]
  | case9 db token rest notLineBreak notLast notString =>
    rw [advance_of_unexpected notLineBreak notLast notString]
  | case10 db span => rw [advance]
  | case11 db fault resume => rw [advance]

/-- A root file to load, a file to include, or what is left of the text of a file. -/
inductive Task where
  | root (name : String)
  | file (path : String)
  | text (name : String) (stream : TokenStream)

/-- What is done about a file: it has been read before, it cannot be read, or its text
is read. -/
inductive Visit where
  | skipped (path : String)
  | unreadable (path : String)
  | parsed (path : String)

/-- Loading with everything that is included, however deeply: the visits to files in the
order in which they begin, and the outcome. -/
inductive Runs (source : FileSource) (options : LoadOptions) :
    Task → Database → List Visit → EStateM.Result Error Database Unit → Prop
  | skipped {path : String} {db : Database} :
      db.hasFile (source.identity path) = true →
      Runs source options (.file path) db [.skipped path] (.ok () db)
  | unreadable {path : String} {cause : Cause} {db : Database} :
      db.hasFile (source.identity path) = false → source.read path = .error cause →
      Runs source options (.file path) db [.unreadable path] (.error (.ofCause cause) db)
  | parsed {path : String} {bytes : List UInt8} {db : Database} {visits : List Visit}
      {result : EStateM.Result Error Database Unit} :
      db.hasFile (source.identity path) = false → source.read path = .ok bytes →
      Runs source options (.text path (.ofText (textOfUtf8Lossy bytes)))
        (db.beginFile (source.identity path)) visits result →
      Runs source options (.file path) db (.parsed path :: visits) result
  | finished {name : String} {stream : TokenStream} {db after : Database} :
      advance stream db = (after, .finished) →
      Runs source options (.text name stream) db [] (.ok () after)
  | failed {name : String} {stream : TokenStream} {fault : Fault} {db after : Database} :
      advance stream db = (after, .failed fault) →
      Runs source options (.text name stream) db [] (.error (fault.within name) after)
  | included {name : String} {stream rest : TokenStream} {target : Token}
      {db before middle : Database} {visits more : List Visit}
      {result : EStateM.Result Error Database Unit} :
      advance stream db = (before, .inclusion target rest) →
      Runs source options (.file (options.fileName target.text)) before visits
        (.ok () middle) →
      Runs source options (.text name rest) middle more result →
      Runs source options (.text name stream) db (visits ++ more) result
  | refused {name : String} {stream rest : TokenStream} {target : Token} {error : Error}
      {db before after : Database} {visits : List Visit} :
      advance stream db = (before, .inclusion target rest) →
      Runs source options (.file (options.fileName target.text)) before visits
        (.error error after) →
      Runs source options (.text name stream) db visits
        (.error (error.locate (contextOf name target)) after)
  | ended {name : String} {db after : Database} {visits : List Visit} :
      Runs source options (.file (options.fileName name)) db visits (.ok () after) →
      Runs source options (.root name) db visits
        ((if options.linksBases then linkLoaded else pure ()) after)
  | stopped {name : String} {error : Error} {db after : Database} {visits : List Visit} :
      Runs source options (.file (options.fileName name)) db visits (.error error after) →
      Runs source options (.root name) db visits (.error error after)

namespace Runs

variable {source : FileSource} {options : LoadOptions} {task : Task} {db : Database}
  {visits others : List Visit} {result other : EStateM.Result Error Database Unit}

/-- There is one way for it to run. -/
theorem unique (runs : Runs source options task db visits result)
    (again : Runs source options task db others other) : visits = others ∧ result = other := by
  induction runs generalizing others other with
  | skipped known =>
    cases again <;> simp_all
  | unreadable unread absent =>
    cases again <;> simp_all
  | parsed unread found _ ih =>
    cases again with
    | skipped known => simp_all
    | unreadable _ absent => simp_all
    | parsed _ same rest =>
      cases found.symm.trans same
      obtain ⟨rfl, rfl⟩ := ih rest
      exact ⟨rfl, rfl⟩
  | finished halted =>
    cases again <;> simp_all
  | failed halted =>
    cases again <;> simp_all
  | included halted _ _ first last =>
    cases again with
    | finished same => cases halted.symm.trans same
    | failed same => cases halted.symm.trans same
    | included same inside rest =>
      cases halted.symm.trans same
      obtain ⟨rfl, ⟨⟩⟩ := first inside
      obtain ⟨rfl, rfl⟩ := last rest
      exact ⟨rfl, rfl⟩
    | refused same inside =>
      cases halted.symm.trans same
      obtain ⟨-, ⟨⟩⟩ := first inside
  | refused halted _ ih =>
    cases again with
    | finished same => cases halted.symm.trans same
    | failed same => cases halted.symm.trans same
    | included same inside rest =>
      cases halted.symm.trans same
      obtain ⟨-, ⟨⟩⟩ := ih inside
    | refused same inside =>
      cases halted.symm.trans same
      obtain ⟨rfl, ⟨⟩⟩ := ih inside
      exact ⟨rfl, rfl⟩
  | ended _ ih =>
    cases again with
    | ended inside =>
      obtain ⟨rfl, ⟨⟩⟩ := ih inside
      exact ⟨rfl, rfl⟩
    | stopped inside => obtain ⟨-, ⟨⟩⟩ := ih inside
  | stopped _ ih =>
    cases again with
    | ended inside => obtain ⟨-, ⟨⟩⟩ := ih inside
    | stopped inside => exact ih inside

end Runs

end EntitySchema.Source
