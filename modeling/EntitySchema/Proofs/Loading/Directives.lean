import EntitySchema.Proofs.Grammar.BodyReaders
import EntitySchema.Proofs.Grammar.Respelling
import EntitySchema.Proofs.Loading.Calls

/-! What reading a source text does, directive by directive. All directives but inclusions
change the database by themselves, and by what they say, not by where they stand. -/
namespace EntitySchema.Source

open Grammar
open TokenStream (ahead)

/-- A line break or a directive that includes no file, and what it does to a database. -/
inductive Stated : List Token → (Database → Database) → Prop
  | lineBreak {token : Token} : token.kind = .newline → Stated [token] id
  | mapSize {keyword : Token} {tokens : List Token} {low high : Int64} :
      keyword.kind = .string → Directed keyword.text tokens (.mapSize low high) →
      Stated (keyword :: tokens) (·.setMapSize low high)
  | block {keyword : Token} {heading body : List Token} {head : EntityClass}
      {members : List Member} :
      keyword.kind = .string → Directed keyword.text heading (.classHead head) →
      Body Tolerated head.name body members →
      Stated (keyword :: (heading ++ body)) (·.define (members.foldl Member.enter head))

/-- A directive that includes the file a token names. -/
inductive Inclusion : Token → List Token → Token → Prop
  | intro {keyword target : Token} {tokens : List Token} :
      keyword.kind = .string → fold keyword.text = "@include" → Expected .string tokens target →
      Inclusion keyword tokens target

variable {options : LoadOptions} {includeFile : String → Loading Unit} {name : String}
  {tokens : List Token} {change : Database → Database}

theorem Inclusion.readDirective {keyword target : Token}
    (inclusion : Inclusion keyword tokens target) (rest : TokenStream) :
    readDirective keyword (ahead tokens rest) = .ok (.includeFile target) rest := by
  obtain ⟨_, folded, expected⟩ := inclusion
  exact (accepts_readDirective keyword _ _ _).mpr ⟨tokens, rfl, .includeFile folded expected⟩

theorem Inclusion.loadStream {keyword target : Token} {db middle : Database}
    (inclusion : Inclusion keyword tokens target)
    (included : includeFile (options.fileName target.text) db = .ok () middle)
    (rest : TokenStream) :
    loadStream options includeFile name (.token keyword (ahead tokens rest)) db =
      loadStream options includeFile name rest middle := by
  have read := inclusion.readDirective rest
  obtain ⟨string, _, _⟩ := inclusion
  rw [Source.loadStream]
  simp only [string]
  split <;> simp_all

theorem Inclusion.respelled {keyword target : Token} {others : List Token}
    (inclusion : Inclusion keyword tokens target) (alike : Alike (keyword :: tokens) others) :
    ∃ other rest named, others = other :: rest ∧ Inclusion other rest named ∧
      named.text = target.text := by
  obtain ⟨other, rest, rfl, kind, text, alike⟩ := alike.of_cons
  obtain ⟨string, folded, expected⟩ := inclusion
  obtain ⟨named, expected, same⟩ := expected.respelled alike
  exact ⟨other, rest, named, rfl, ⟨kind.trans string, text ▸ folded, expected⟩, same⟩

namespace Stated

theorem loadStream (stated : Stated tokens change) (rest : TokenStream) (db : Database) :
    loadStream options includeFile name (ahead tokens rest) db =
      loadStream options includeFile name rest (change db) := by
  cases stated with
  | lineBreak lineBreak =>
    rw [TokenStream.ahead_cons, Source.loadStream]
    simp only [lineBreak]
    rfl
  | mapSize string directed =>
    have read := (accepts_readDirective _ _ _ rest).mpr ⟨_, rfl, directed⟩
    rw [TokenStream.ahead_cons, Source.loadStream]
    simp only [string]
    split <;> simp_all
  | @block keyword heading body head members string directed derived =>
    have read := (accepts_readDirective _ _ _ (ahead body rest)).mpr ⟨_, rfl, directed⟩
    have entered := readBody_of_body derived rfl rest
    rw [TokenStream.ahead_cons, TokenStream.ahead_append, loadStream_of_block string read entered]

theorem respelled {others : List Token} (stated : Stated tokens change)
    (alike : Alike tokens others) : Stated others change := by
  cases stated with
  | lineBreak lineBreak =>
    obtain ⟨other, rfl, kind, _⟩ := alike.of_singleton
    exact .lineBreak (kind.trans lineBreak)
  | mapSize string directed =>
    obtain ⟨keyword, rest, rfl, kind, text, alike⟩ := alike.of_cons
    rw [← text] at directed
    cases directed with
    | mapSize folded expected known =>
      obtain ⟨bounds, expected, same⟩ := expected.respelled alike
      rw [← same] at known
      exact .mapSize (kind.trans string) (.mapSize folded expected known)
  | block string directed body =>
    obtain ⟨keyword, rest, rfl, kind, text, alike⟩ := alike.of_cons
    obtain ⟨heading, others, rfl, same, alike⟩ := alike.of_append
    rw [← text] at directed
    cases directed with
    | classHead notInclude notMapSize keyword known headed =>
      exact .block (kind.trans string)
        (.classHead notInclude notMapSize keyword known (headed.respelled same))
        (body.respelled alike)

/-- Where such a directive ends does not depend on what comes after it. -/
theorem closed (stated : Stated tokens change) :
    ∀ token ∈ tokens.getLast?, token.kind ≠ .string := by
  intro token last
  cases stated with
  | lineBreak lineBreak =>
    obtain rfl : _ = token := by simpa using last
    simp [lineBreak]
  | mapSize string directed =>
    cases directed with
    | @mapSize bounds low high _ expected known =>
      obtain ⟨breaks, rfl, _, arguments⟩ := expected
      rw [← List.cons_append, List.getLast?_concat] at last
      cases last
      simp [arguments]
  | @block keyword heading body head members string directed derived =>
    obtain ⟨front, bracket, rfl, closes⟩ := derived.closed
    rw [← List.append_assoc, ← List.cons_append, List.getLast?_concat] at last
    cases last
    simp [closes]

/-- What a directive does has nothing to do with the files that have been read. -/
theorem change_files (stated : Stated tokens change) (db : Database) (files : List String) :
    change { db with files } = { change db with files } := by
  cases stated <;> rfl

theorem files_change (stated : Stated tokens change) (db : Database) :
    (change db).files = db.files := by
  cases stated <;> rfl

end Stated

/-- How a stream of directives is loaded to its end. -/
inductive Loaded (options : LoadOptions) (includeFile : String → Loading Unit) :
    TokenStream → Database → Database → Prop
  | done {span : Span} {db : Database} : Loaded options includeFile (.exhausted span) db db
  | stop {token : Token} {rest : TokenStream} {db : Database} :
      token.kind = .endOfInput → Loaded options includeFile (.token token rest) db db
  | stated {tokens : List Token} {rest : TokenStream} {change : Database → Database}
      {db after : Database} :
      Stated tokens change → Loaded options includeFile rest (change db) after →
      Loaded options includeFile (ahead tokens rest) db after
  | included {keyword target : Token} {tokens : List Token} {rest : TokenStream}
      {db middle after : Database} :
      Inclusion keyword tokens target →
      includeFile (options.fileName target.text) db = .ok () middle →
      Loaded options includeFile rest middle after →
      Loaded options includeFile (.token keyword (ahead tokens rest)) db after

theorem loaded_of_loadStream {stream : TokenStream} {db after : Database}
    (ran : loadStream options includeFile name stream db = .ok () after) :
    Loaded options includeFile stream db after := by
  fun_induction loadStream options includeFile name stream db with
  | case1 db token rest lineBreak ih => exact .stated (.lineBreak lineBreak) (ih ran)
  | case2 db token rest last =>
    cases ran
    exact .stop last
  | case3 db token rest string target after read middle included ih =>
    obtain ⟨tokens, rfl, directed⟩ := (accepts_readDirective _ _ _ _).mp read
    cases directed with
    | includeFile folded expected =>
      exact .included (.intro string folded expected) included (ih ran)
  | case5 db token rest string low high after read ih =>
    obtain ⟨tokens, rfl, directed⟩ := (accepts_readDirective _ _ _ _).mp read
    exact .stated (.mapSize string directed) (ih ran)
  | case6 db token rest string head after read entity behind entered ih =>
    obtain ⟨tokens, rfl, directed⟩ := (accepts_readDirective _ _ _ _).mp read
    obtain ⟨row, members, rfl, body, rfl⟩ := readBody_eq_ok_iff.mp entered
    rw [← TokenStream.ahead_append]
    exact .stated (.block string directed body) (ih ran)
  | case10 =>
    cases ran
    exact .done
  | _ => cases ran

theorem loadStream_of_loaded {stream : TokenStream} {db after : Database}
    (loaded : Loaded options includeFile stream db after) :
    loadStream options includeFile name stream db = .ok () after := by
  induction loaded with
  | done => rw [loadStream]
  | stop last =>
    rw [loadStream]
    simp only [last]
  | stated stated _ ih => rw [stated.loadStream, ih]
  | included inclusion included _ ih => rw [inclusion.loadStream included, ih]

theorem loadStream_eq_ok_iff {stream : TokenStream} {db after : Database} :
    loadStream options includeFile name stream db = .ok () after ↔
      Loaded options includeFile stream db after :=
  ⟨loaded_of_loadStream, loadStream_of_loaded⟩

end EntitySchema.Source
