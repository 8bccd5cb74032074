import EntitySchema.Proofs.Cutting
import EntitySchema.Proofs.Grammar.Placement
import EntitySchema.Proofs.Loading.Running

/-! Source texts that are read from another place on. The tokens are the same ones at other
places, so the directives are the same, and what is at fault is so at the place it has moved
to. With both places the same this tells where faults can be. -/
namespace EntitySchema

variable {R : Place → Place → Prop}

/-- Whether a string ends does not depend on where it begins. -/
theorem readQuoted_unterminated {before source : List Char} {mark : Mark} {after : Cursor}
    (endless : readQuoted before source mark = (none, after)) (other : Mark) :
    ∃ stop, readQuoted before source other = (none, stop) := by
  rcases found : readQuoted before source other with ⟨_ | text, stop⟩
  · exact ⟨stop, rfl⟩
  · obtain ⟨raw, text, split, quoted, -, -⟩ := quoted_of_readQuoted found
    rw [split, readQuoted_of_quoted quoted] at endless
    cases endless

/-- What is wrong with arguments, and how far into them it shows. -/
theorem readArguments_faulty {source : List Char} {mark : Mark} {problem : SyntaxProblem}
    {after : Cursor} (failed : readArguments source mark = (.error problem, after)) :
    ∃ text rest, source = text ++ rest ∧ ∀ other,
      readArguments source other = (.error problem, ⟨rest, other.after text⟩) := by
  have whole := List.takeWhile_append_dropWhile (p := fun c => c != '(' && c != ')') (l := source)
  rw [readArguments] at failed
  split at failed
  · cases failed
  · rename_i left
    cases failed
    exact ⟨_, [], by rw [← left, whole], fun other => by simp [readArguments, left]⟩
  · rename_i closed more
    cases failed
    exact ⟨_, _, whole.symm, fun other => by
      rw [readArguments]
      split <;> simp_all⟩

/-- A fault of the lexer lies at a boundary of the text, the same from every mark on. -/
theorem fault_of_readToken {source : List Char} {mark : Mark} {fault : Fault} {after : Cursor}
    (failed : Cursor.readToken ⟨source, mark⟩ = (.error fault, after)) :
    ∃ front back problem, source = front ++ back ∧ fault = (mark.after front).malformed problem ∧
      ∀ other, ∃ stop, Cursor.readToken ⟨source, other⟩ =
        (.error ((other.after front).malformed problem), stop) := by
  cases source with
  | nil => cases failed
  | cons c rest =>
    rw [Cursor.readToken] at failed
    dsimp only at failed
    split at failed
    · cases failed
    · rename_i plain
      split at failed
      · rename_i quote
        subst quote
        split at failed
        · cases failed
        · rename_i behind endless
          cases failed
          refine ⟨[], _, .unterminatedString, rfl, rfl, fun other => ?_⟩
          obtain ⟨stop, again⟩ := readQuoted_unterminated endless (other.step '"')
          exact ⟨stop, by simp [Cursor.readToken, symbol?, again]⟩
      · split at failed
        · rename_i parenthesis
          subst parenthesis
          split at failed
          · cases failed
          · rename_i behind faulty
            cases failed
            obtain ⟨text, more, rfl, again⟩ := readArguments_faulty faulty
            have stopped := (again (mark.step '(')).symm.trans faulty
            cases stopped
            refine ⟨'(' :: text, more, .nestedParenthesis, rfl, rfl, fun other => ?_⟩
            exact ⟨_, by simp [Cursor.readToken, symbol?, again]; rfl⟩
          · rename_i problem behind flat faulty
            cases failed
            obtain ⟨text, more, rfl, again⟩ := readArguments_faulty faulty
            refine ⟨[], _, problem, rfl, rfl, fun other => ?_⟩
            refine ⟨⟨more, (other.step '(').after text⟩, ?_⟩
            simp only [Cursor.readToken, symbol?, again]
            split <;> simp_all
        · split at failed
          · rename_i quote parenthesis delimiter
            cases failed
            refine ⟨[], _, .unexpectedCharacter c, rfl, rfl, fun other => ?_⟩
            exact ⟨_, by simp [Cursor.readToken, plain, quote, parenthesis, delimiter]; rfl⟩
          · cases failed

/-- The places of a stream correspond if those of the boundaries of its text do. The induction
goes from each token to the text behind it, which is shorter. -/
theorem Cursor.stream_moved {text : List Char} {mark other : Mark}
    (places : ∀ front back, text = front ++ back →
      R (mark.after front).place (other.after front).place) :
    (Cursor.stream ⟨text, mark⟩).Moved R (Cursor.stream ⟨text, other⟩) := by
  induction size : text.length using Nat.strongRecOn generalizing text mark other with
  | ind size ih =>
    obtain ⟨blank, behind, comment, rfl, trivia, stands, skipped⟩ :=
      trivia_of_skipTrivia false text mark
    have alike := skipTrivia_of_trivia trivia stands other
    have within : ∀ front back, behind = front ++ back →
        R ((mark.after blank).after front).place ((other.after blank).after front).place := by
      intro front back split
      rw [← Mark.after_append, ← Mark.after_append]
      exact places (blank ++ front) back (by rw [split, List.append_assoc])
    rw [Cursor.stream_of_skipped skipped, Cursor.stream_of_skipped alike]
    rcases found : Cursor.readToken ⟨behind, mark.after blank⟩ with ⟨fault | token, after⟩
    · obtain ⟨front, back, problem, split, rfl, again⟩ := fault_of_readToken found
      obtain ⟨stop, again⟩ := again (other.after blank)
      rw [again]
      exact .failed ⟨rfl, within front back split⟩
    · by_cases last : token.kind = .endOfInput
      · obtain rfl := eq_nil_of_readToken found last
        cases found
        exact .exhausted (within [] [] rfl)
      · obtain ⟨word, rfl, lexeme, stop, span⟩ := lexeme_of_readToken stands found last
        obtain ⟨more, next⟩ := after
        obtain ⟨kind, text, place⟩ := token
        cases stop
        cases span
        rw [readToken_of_lexeme lexeme]
        simp only [last, lexeme.kind_ne_endOfInput, if_false]
        have begins := within [] (word ++ more) rfl
        refine .token ⟨begins⟩ (ih more.length ?_ (fun front back split => ?_) rfl)
        · have shorter := List.length_pos_of_ne_nil lexeme.ne_nil
          simp only [← size, List.length_append]
          omega
        · have further := within (word ++ front) back (by rw [split, List.append_assoc])
          rwa [Mark.after_append, Mark.after_append _ word] at further

namespace Source

open Grammar

/-- The same directive. Only an inclusion speaks of a token. -/
inductive Directive.Moved (R : Place → Place → Prop) : Directive → Directive → Prop
  | includeFile {target other : Token} :
      target.Moved R other → Moved R (.includeFile target) (.includeFile other)
  | mapSize {low high : Int64} : Moved R (.mapSize low high) (.mapSize low high)
  | classHead {head : EntityClass} : Moved R (.classHead head) (.classHead head)

theorem placeless_readDirective {keyword other : Token} (moved : keyword.Moved R other) :
    Placeless R (Directive.Moved R) (readDirective keyword) (readDirective other) := by
  obtain ⟨place⟩ := moved
  simp only [readDirective]
  split
  · exact .bind (placeless_expect _) fun target other moved => .pure (.includeFile moved)
  · refine .bind (placeless_expect _) fun token other moved => ?_
    obtain ⟨place⟩ := moved
    dsimp only
    split
    · exact .pure .mapSize
    · exact .throw (Token.Moved.semantic ⟨place⟩ _)
  · split
    · split
      · exact .andThen (placeless_readHead _) fun head => .pure .classHead
      · exact .throw (Token.Moved.semantic ⟨place⟩ _)
    · exact .throw (Token.Moved.semantic ⟨place⟩ _)

/-- Reading that halts at the same point. -/
inductive Halt.Moved (R : Place → Place → Prop) : Halt → Halt → Prop
  | finished : Moved R .finished .finished
  | failed {fault other : Fault} : fault.Moved R other → Moved R (.failed fault) (.failed other)
  | inclusion {target other : Token} {rest others : TokenStream} :
      target.Moved R other → rest.Moved R others →
      Moved R (.inclusion target rest) (.inclusion other others)

/-- The directives up to the next halt do the same. -/
theorem advance_moved {stream others : TokenStream} (moved : stream.Moved R others)
    (db : Database) :
    (advance others db).1 = (advance stream db).1 ∧
      (advance stream db).2.Moved R (advance others db).2 := by
  fun_induction advance stream db generalizing others with
  | case1 db token rest lineBreak ih =>
    obtain ⟨moved, alike⟩ := moved
    rw [advance_of_lineBreak (moved.kind.trans lineBreak)]
    exact ih alike
  | case2 db token rest last =>
    obtain ⟨moved, alike⟩ := moved
    rw [advance_of_endOfInput (moved.kind.trans last)]
    exact ⟨rfl, .finished⟩
  | case3 db token rest string target after read =>
    obtain ⟨moved, alike⟩ := moved
    obtain ⟨_, others, again, ⟨target⟩, alike⟩ :=
      (placeless_readDirective moved).exists_ok alike read
    rw [advance_of_string (moved.kind.trans string), again]
    exact ⟨rfl, .inclusion target alike⟩
  | case4 db token rest string low high after read ih =>
    obtain ⟨moved, alike⟩ := moved
    obtain ⟨_, others, again, ⟨⟩, alike⟩ :=
      (placeless_readDirective moved).exists_ok alike read
    rw [advance_of_string (moved.kind.trans string), again]
    exact ih alike
  | case5 db token rest string head after read entity behind body ih =>
    obtain ⟨moved, alike⟩ := moved
    obtain ⟨_, others, again, ⟨⟩, alike⟩ :=
      (placeless_readDirective moved).exists_ok alike read
    obtain ⟨same, agree⟩ := placeless_readBody head alike
    rcases changed : readBody head others with ⟨entity, result⟩
    rw [body, changed] at same agree
    cases same
    obtain ⟨-, alike⟩ := agree
    simp only [advance_of_string (moved.kind.trans string), again, changed]
    exact ih alike
  | case6 db token rest string head after read entity fault behind body =>
    obtain ⟨moved, alike⟩ := moved
    obtain ⟨_, others, again, ⟨⟩, alike⟩ :=
      (placeless_readDirective moved).exists_ok alike read
    obtain ⟨same, agree⟩ := placeless_readBody head alike
    rcases changed : readBody head others with ⟨entity, result⟩
    rw [body, changed] at same agree
    cases same
    obtain _ | fault := agree
    rw [advance_of_string (moved.kind.trans string), again]
    simp only [changed]
    exact ⟨True.intro, .failed fault⟩
  | case7 db token rest string fault after read =>
    obtain ⟨moved, alike⟩ := moved
    obtain ⟨_, others, again, fault⟩ := (placeless_readDirective moved).exists_error alike read
    rw [advance_of_string (moved.kind.trans string), again]
    exact ⟨rfl, .failed fault⟩
  | case8 db token rest notLineBreak notLast notString =>
    obtain ⟨moved, alike⟩ := moved
    rw [← moved.kind] at notLineBreak notLast notString
    rw [advance_of_unexpected notLineBreak notLast notString]
    exact ⟨rfl, .failed moved.unexpected⟩
  | case9 db span =>
    cases moved with
    | exhausted place =>
      rw [advance]
      exact ⟨rfl, .finished⟩
  | case10 db fault resume =>
    cases moved with
    | failed fault =>
      rw [advance]
      exact ⟨rfl, .failed fault⟩

section

variable {options : LoadOptions} {includeFile : String → Loading Unit}

/-- How the reading of a source text ends, whatever name it goes by: with a fault of its own
or with an error in a file that it includes. -/
inductive Ending where
  | finished
  | itself (fault : Fault)
  | inside (error : Error)

def Ending.under (ending : Ending) (name : String) (db : Database) :
    EStateM.Result Error Database Unit :=
  match ending with
  | .finished => .ok () db
  | .itself fault => .error (fault.within name) db
  | .inside error => .error error db

/-- The same ending. Only the text itself has moved, not the files that it includes. -/
inductive Ending.Moved (R : Place → Place → Prop) : Ending → Ending → Prop
  | finished : Moved R .finished .finished
  | itself {fault other : Fault} : fault.Moved R other → Moved R (.itself fault) (.itself other)
  | inside {error : Error} : Moved R (.inside error) (.inside error)

/-- A text that has moved is read to the same database, with the same ending. -/
theorem loadStream_moved {stream others : TokenStream} (moved : stream.Moved R others)
    (db : Database) :
    ∃ (ending other : Ending) (after : Database), ending.Moved R other ∧
      (∀ name, loadStream options includeFile name stream db = ending.under name after) ∧
      ∀ name, loadStream options includeFile name others db = other.under name after := by
  induction size : stream.length using Nat.strongRecOn generalizing stream others db with
  | ind size ih =>
    have alike := advance_moved moved db
    simp only [loadStream_eq _ stream, loadStream_eq _ others]
    rcases halted : advance stream db with ⟨before, halt⟩
    rcases changed : advance others db with ⟨middle, other⟩
    rw [halted, changed] at alike
    obtain ⟨same, alike⟩ := alike
    cases same
    cases alike with
    | finished => exact ⟨.finished, .finished, _, .finished, fun _ => rfl, fun _ => rfl⟩
    | failed fault => exact ⟨.itself _, .itself _, _, .itself fault, fun _ => rfl, fun _ => rfl⟩
    | inclusion target rest =>
      obtain @⟨kind, text, span, other, place⟩ := target
      dsimp only
      rcases includeFile (options.fileName text) before with
        ⟨⟨⟩, middle⟩ | ⟨⟨cause, context⟩, after⟩
      · exact ih _ (size ▸ length_advance_lt halted) rest middle rfl
      · cases context with
        | none =>
          exact ⟨.itself ⟨cause, span.line, span.column⟩, .itself ⟨cause, other.line, other.column⟩,
            after, .itself ⟨rfl, place⟩, fun _ => rfl, fun _ => rfl⟩
        | some context => exact ⟨.inside _, .inside _, after, .inside, fun _ => rfl, fun _ => rfl⟩

end

end Source
end EntitySchema
