import EntitySchema.Proofs.Cutting
import EntitySchema.Proofs.Loading.Directives
import EntitySchema.Proofs.Offsets
import EntitySchema.Proofs.OrderedMap
import EntitySchema.Proofs.Outcome
import EntitySchema.Proofs.Utf8

/-! Source texts with the files they include written out in place. Reading such a text
gives the database that reading the files one after the other gives. -/
namespace EntitySchema

namespace Source

open TokenStream (ahead)

/-- The inclusions among the directives of a stream, each with its keyword and the token
that names the file. -/
def inclusions (stream : TokenStream) : List (Token × Token) :=
  match stream with
  | .token token rest =>
    match token.kind with
    | .newline => inclusions rest
    | .string =>
      match _ : readDirective token rest with
      | .ok (.includeFile target) after => (token, target) :: inclusions after
      | .ok (.mapSize _ _) after => inclusions after
      | .ok (.classHead head) after =>
        match _ : Grammar.readBody head after with
        | (_, .ok () behind) => inclusions behind
        | (_, .error _ _) => []
      | .error _ _ => []
    | _ => []
  | _ => []
termination_by stream.length
decreasing_by
  · simp [TokenStream.length]
  · exact Nat.lt_succ_of_le (consuming_readDirective _ _ _ _ ‹_›)
  · exact Nat.lt_succ_of_le (consuming_readDirective _ _ _ _ ‹_›)
  · refine Nat.lt_succ_of_le (Nat.le_trans (@Grammar.length_readBody_le head _ _ ?_)
      (consuming_readDirective token _ _ _ ‹_›))
    rw [‹Grammar.readBody head after = _›]

/-- A text that begins at the given offset with each inclusion in it replaced, from its
keyword to the name of the file. The files read so far are passed on from one to the next. -/
def splice (replace : Token → List String → List Char × List String) (offset : Nat)
    (text : List Char) (read : List String) : List (Token × Token) → List Char × List String
  | [] => (text, read)
  | (keyword, target) :: inclusions =>
    let (new, read) := replace target read
    let (rest, read) := splice replace target.span.stop
      (Text.dropBytes (target.span.stop - offset) text) read inclusions
    (Text.takeBytes (keyword.span.start - offset) text ++ (new ++ rest), read)

/-- What takes the place of an inclusion: the file between line breaks, or one line break
if the file has been read. -/
def replacement (source : FileSource) (file : String → List String → List Char × List String)
    (path : String) (read : List String) : List Char × List String :=
  if read.contains (source.identity path) then (['\n'], read)
  else
    let (text, read) := file path (read ++ [source.identity path])
    ('\n' :: (text ++ ['\n']), read)

/-- The text of a file with all it includes, at most `depth` deep, and the files that have
been read behind it. -/
def flattened (source : FileSource) (options : LoadOptions) :
    (depth : Nat) → (path : String) → (read : List String) → List Char × List String
  | 0, _, read => ([], read)
  | depth + 1, path, read =>
    match source.read path with
    | .error _ => ([], read)
    | .ok bytes =>
      let text := textOfUtf8Lossy bytes
      let replace := fun target : Token =>
        replacement source (flattened source options depth) (options.fileName target.text)
      splice replace 0 text.toList read (inclusions (.ofText text))

theorem splice_append {replace : Token → List String → List Char × List String} {offset : Nat}
    {front back : List Char} {read : List String} {inclusions : List (Token × Token)}
    (behind : ∀ inclusion ∈ inclusions.head?,
      offset + Text.byteSize front ≤ inclusion.1.span.start ∧
        offset + Text.byteSize front ≤ inclusion.2.span.stop) :
    splice replace offset (front ++ back) read inclusions =
      (front ++ (splice replace (offset + Text.byteSize front) back read inclusions).1,
        (splice replace (offset + Text.byteSize front) back read inclusions).2) := by
  cases inclusions with
  | nil => rfl
  | cons inclusion inclusions =>
    obtain ⟨keyword, target⟩ := inclusion
    obtain ⟨start, stop⟩ := behind (keyword, target) rfl
    dsimp only at start stop
    obtain ⟨n, begins⟩ := Nat.exists_eq_add_of_le start
    obtain ⟨m, ends⟩ := Nat.exists_eq_add_of_le stop
    have first : keyword.span.start - offset = Text.byteSize front + n := by omega
    have last : target.span.stop - offset = Text.byteSize front + m := by omega
    have within : keyword.span.start - (offset + Text.byteSize front) = n := by omega
    have beyond : target.span.stop - (offset + Text.byteSize front) = m := by omega
    simp [splice, first, last, within, beyond, Text.takeBytes_append, Text.dropBytes_append]

/-- What stands before an inclusion is kept, and what stands behind it goes on. -/
theorem splice_inclusion (replace : Token → List String → List Char × List String)
    {offset : Nat} {front gone : List Char} {keyword target : Token}
    (starts : keyword.span.start = offset + Text.byteSize front)
    (stops : target.span.stop = offset + Text.byteSize (front ++ gone)) (back : List Char)
    (read : List String) (inclusions : List (Token × Token)) :
    splice replace offset (front ++ (gone ++ back)) read ((keyword, target) :: inclusions) =
      let (new, read) := replace target read
      let (rest, read) := splice replace (offset + Text.byteSize (front ++ gone)) back read
        inclusions
      (front ++ (new ++ rest), read) := by
  have kept : Text.takeBytes (keyword.span.start - offset) (front ++ (gone ++ back)) = front := by
    rw [starts, Nat.add_sub_cancel_left, ← Nat.add_zero (Text.byteSize front),
      Text.takeBytes_append, Text.takeBytes, List.append_nil]
  have left : Text.dropBytes (target.span.stop - offset) (front ++ (gone ++ back)) = back := by
    rw [stops, Nat.add_sub_cancel_left, ← List.append_assoc,
      ← Nat.add_zero (Text.byteSize (front ++ gone)), Text.dropBytes_append, Text.dropBytes]
  rw [splice, kept, left, stops]

theorem inclusions_exhausted (span : Span) : inclusions (.exhausted span) = [] := by
  rw [inclusions.eq_def]

theorem inclusions_of_stated {tokens : List Token} {change : Database → Database}
    (stated : Stated tokens change) (rest : TokenStream) :
    inclusions (ahead tokens rest) = inclusions rest := by
  cases stated with
  | lineBreak lineBreak =>
    rw [TokenStream.ahead_cons, inclusions]
    simp only [lineBreak]
    rfl
  | mapSize string directed =>
    have read := (accepts_readDirective _ _ _ rest).mpr ⟨_, rfl, directed⟩
    rw [TokenStream.ahead_cons, inclusions]
    simp only [string]
    split <;> simp_all
  | @block keyword heading body head members string directed derived =>
    have read := (accepts_readDirective _ _ _ (ahead body rest)).mpr ⟨_, rfl, directed⟩
    have entered := Grammar.readBody_of_body derived rfl rest
    rw [TokenStream.ahead_cons, TokenStream.ahead_append, inclusions]
    simp only [string]
    split
    · simp_all
    · simp_all
    · rename_i same
      rw [read] at same
      cases same
      split <;> simp_all
    · simp_all

theorem inclusions_of_inclusion {keyword target : Token} {tokens : List Token}
    (inclusion : Inclusion keyword tokens target) (rest : TokenStream) :
    inclusions (.token keyword (ahead tokens rest)) = (keyword, target) :: inclusions rest := by
  have read := inclusion.readDirective rest
  obtain ⟨string, _, _⟩ := inclusion
  rw [inclusions]
  simp only [string]
  split <;> simp_all

/-- What may come behind a text without running into it. -/
def Continues (more : List Char) : Prop := ∀ c ∈ more.head?, c = '\n'

theorem Continues.stands {more : List Char} (continues : Continues more) (comment : Bool) :
    Stands comment more := by
  cases more with
  | nil => exact True.intro
  | cons c more => exact Or.inl (continues c rfl)

theorem loadStream_lineBreak {options : LoadOptions} {includeFile : String → Loading Unit}
    (name : String) (text : List Char) (mark : Mark) (db : Database) :
    loadStream options includeFile name (Cursor.stream ⟨'\n' :: text, mark⟩) db =
      loadStream options includeFile name (Cursor.stream ⟨text, mark.step '\n'⟩) db := by
  have cut : Cut ['\n'] [(.newline, "\n")] text :=
    .lexeme (.symbol rfl) (stands_lineBreak _ _)
  obtain ⟨tokens, spelled, found⟩ := cut.stream mark
  have stated : Stated [⟨.newline, "\n", ⟨0, 0, 0, 0⟩⟩] id := .lineBreak rfl
  rw [List.singleton_append] at found
  rw [found, (stated.respelled spelled).loadStream]
  rfl

/-- Reading a text, whoever includes whatever, takes the classes and map bounds of one
database to those of another and leaves its files alone. -/
def Carries (text : List Char) (before after : Database) : Prop :=
  ∀ (options : LoadOptions) (includeFile : String → Loading Unit) (name : String)
    (files : List String) (more : List Char) (mark : Mark), Continues more →
    loadStream options includeFile name (Cursor.stream ⟨text ++ more, mark⟩)
        { before with files } =
      loadStream options includeFile name (Cursor.stream ⟨more, mark.after text⟩)
        { after with files }

namespace Carries

variable {text last : List Char} {before middle after : Database}

/-- A text of trivia, which may end in a comment, does nothing. -/
theorem trivia {comment : Bool} (trivia : Trivia false text comment) (db : Database) :
    Carries text db db := by
  intro options includeFile name files more mark continues
  rw [Cursor.stream_of_trivia trivia (continues.stands _) mark (continues.stands _)]

theorem stated {tokens : List Token} {change : Database → Database} {more : List Char}
    (stated : Stated tokens change) (cut : Cut text (tokens.map Token.spelling) more)
    (rest : Carries last (change before) after) : Carries (text ++ last) before after := by
  intro options includeFile name files behind mark continues
  have closed : ∀ spelling ∈ (tokens.map Token.spelling).getLast?, spelling.1 ≠ .string := by
    intro spelling final
    rw [List.getLast?_map] at final
    obtain ⟨token, ending, rfl⟩ := Option.map_eq_some_iff.mp final
    exact stated.closed token ending
  obtain ⟨others, alike, found⟩ := (cut.move closed (last ++ behind)).stream mark
  have restated := stated.respelled alike
  rw [List.append_assoc, found, restated.loadStream, restated.change_files,
    rest _ _ _ _ _ _ continues, Mark.after_append]

theorem lineBreak (rest : Carries last before after) : Carries ('\n' :: last) before after := by
  intro options includeFile name files more mark continues
  rw [List.cons_append, loadStream_lineBreak, rest _ _ _ _ _ _ continues]
  rfl

/-- Trivia in front of a line break go with it. -/
theorem blank {comment : Bool} (trivia : Trivia false text comment)
    (rest : Carries last before after) : Carries (text ++ '\n' :: last) before after := by
  intro options includeFile name files more mark continues
  have stands := fun comment => stands_lineBreak comment (last ++ more)
  have skipped := Cursor.stream_of_trivia trivia (stands _) mark (stands _)
  have broken := rest.lineBreak options includeFile name files more (mark.after text) continues
  rw [List.cons_append] at broken
  rw [List.append_assoc, List.cons_append, skipped, broken, Mark.after_append]

theorem append (first : Carries text before middle) (rest : Carries last middle after) :
    Carries (text ++ '\n' :: last) before after := by
  intro options includeFile name files more mark continues
  have goesOn : Continues ('\n' :: last ++ more) := by simp [Continues]
  rw [List.append_assoc, first _ _ _ _ _ _ goesOn, rest.lineBreak _ _ _ _ _ _ continues,
    Mark.after_append]

end Carries

/-- Including files, and the texts that do the same where they stand. -/
def Unfolds (source : FileSource) (includeFile : String → Loading Unit)
    (file : String → List String → List Char × List String) : Prop :=
  ∀ (path : String) (db after : Database), includeFile path db = .ok () after →
    (db.hasFile (source.identity path) = true ∧ after = db) ∨
      db.hasFile (source.identity path) = false ∧
        Carries (file path (db.files ++ [source.identity path])).1 db after ∧
        (file path (db.files ++ [source.identity path])).2 = after.files

section

variable {source : FileSource} {options : LoadOptions} {includeFile : String → Loading Unit}
  {file : String → List String → List Char × List String} {db middle after : Database}

theorem Unfolds.replacement (unfolds : Unfolds source includeFile file) {path : String}
    (included : includeFile path db = .ok () middle) {blank rest : List Char} {comment : Bool}
    (trivia : Trivia false blank comment) (carries : Carries rest middle after) :
    Carries (blank ++ ((replacement source file path db.files).1 ++ rest)) db after ∧
      (replacement source file path db.files).2 = middle.files := by
  rw [Source.replacement]
  rcases unfolds path db middle included with ⟨known, rfl⟩ | ⟨unknown, inside, files⟩
  · rw [Database.hasFile] at known
    rw [if_pos known]
    exact ⟨.blank trivia carries, rfl⟩
  · rw [Database.hasFile] at unknown
    rw [unknown, if_neg Bool.false_ne_true]
    refine ⟨?_, files⟩
    have whole := Carries.blank trivia (inside.append carries)
    simpa using whole

/-- The induction follows the directives, and the text along with them: what stands before
an inclusion is kept, and so are all other directives. -/
theorem Loaded.splice (unfolds : Unfolds source includeFile file) {stream : TokenStream}
    (loaded : Loaded options includeFile stream db after) {text : List Char} {mark : Mark}
    (same : Cursor.stream ⟨text, mark⟩ = stream) :
    let spliced := Source.splice
      (fun target => Source.replacement source file (options.fileName target.text))
      mark.offset text db.files (inclusions stream)
    Carries spliced.1 db after ∧ spliced.2 = after.files ∧
      ∀ inclusion ∈ (inclusions stream).head?, mark.offset ≤ inclusion.1.span.start ∧
        mark.offset ≤ inclusion.2.span.stop := by
  induction loaded generalizing text mark with
  | done =>
    obtain ⟨comment, trivia⟩ := Cursor.trivia_of_stream_exhausted same
    rw [inclusions_exhausted]
    exact ⟨.trivia trivia _, rfl, nofun⟩
  | stop last =>
    obtain ⟨blank, comment, word, more, rfl, trivia, stands, lexeme, -, -⟩ :=
      Cursor.exists_of_stream_token same
    exact (lexeme.kind_ne_endOfInput last).elim
  | @stated tokens rest change db after stated _ ih =>
    obtain ⟨front, more, rfl, cut, follows, -⟩ := Cut.of_stream same
    obtain ⟨carries, files, behind⟩ := ih follows.symm
    rw [inclusions_of_stated stated]
    rw [Mark.offset_after] at carries files behind
    rw [stated.files_change] at carries files
    rw [splice_append behind]
    refine ⟨.stated stated cut carries, files, fun inclusion first => ?_⟩
    obtain ⟨start, stop⟩ := behind inclusion first
    exact ⟨Nat.le_of_add_right_le start, Nat.le_of_add_right_le stop⟩
  | @included keyword target tokens rest db middle after inclusion included _ ih =>
    obtain ⟨blank, comment, word, behind, rfl, trivia, -, -, span, follows⟩ :=
      Cursor.exists_of_stream_token same
    obtain ⟨front, more, rfl, -, follows, stop⟩ := Cut.of_stream follows.symm
    obtain ⟨carries, files, -⟩ := ih follows.symm
    have final : tokens.getLast? = some target := by
      obtain ⟨_, _, breaks, rfl, _⟩ := inclusion
      exact List.getLast?_concat
    have starts : keyword.span.start = mark.offset + Text.byteSize blank := by
      rw [span, ← Mark.offset_after]
      rfl
    have stops : target.span.stop = mark.offset + Text.byteSize (blank ++ (word ++ front)) := by
      rw [stop target final, ← Mark.offset_after, Mark.after_append, Mark.after_append]
    obtain ⟨whole, read⟩ := unfolds.replacement included trivia carries
    rw [inclusions_of_inclusion inclusion, ← List.append_assoc word,
      splice_inclusion _ starts stops]
    dsimp only
    rw [read, ← stops, stop target final]
    refine ⟨whole, files, fun first head => ?_⟩
    cases head
    dsimp only
    omega

end

/-- Files that include each other, however deeply, do what their flattened texts do. -/
theorem unfolds_includeFile (source : FileSource) (options : LoadOptions) (depth : Nat) :
    Unfolds source (includeFile source options depth) (flattened source options depth) := by
  induction depth using Nat.strongRecOn with
  | ind depth ih =>
    intro path db after ran
    cases unread : db.hasFile (source.identity path) with
    | true =>
      rw [includeFile_of_known unread] at ran
      cases ran
      exact Or.inl ⟨rfl, rfl⟩
    | false =>
      cases found : source.read path with
      | error cause =>
        rw [includeFile_of_unreadable unread found] at ran
        cases ran
      | ok bytes =>
        cases depth with
        | zero => simp [includeFile, unread, found] at ran
        | succ smaller =>
          rw [includeFile_of_read unread found, beginFile_of_unread unread] at ran
          have same : Cursor.stream ⟨(textOfUtf8Lossy bytes).toList, .start⟩ =
              .ofText (textOfUtf8Lossy bytes) := rfl
          obtain ⟨carries, files, -⟩ := (loadStream_eq_ok_iff.mp ran).splice
            (ih smaller (Nat.lt_succ_self smaller)) same
          rw [flattened, found]
          exact Or.inr ⟨rfl, carries, files⟩

/-- The text of a root file with all it includes in place, for a database that has read
some files already. -/
def flatText (source : FileSource) (options : LoadOptions) (path : String) (db : Database) :
    String :=
  String.ofList
    (flattened source options source.nesting path (db.files ++ [source.identity path])).1

theorem carries_all {text : List Char} {db after : Database} (carries : Carries text db after)
    (source : FileSource) (options : LoadOptions) (name : String) :
    loadText source options name (String.ofList text) db =
      .ok () { after with files := db.files } := by
  have ran := carries options (includeFile source options source.nesting) name db.files []
    .start nofun
  rw [List.append_nil, Cursor.stream_nil, loadStream_eq_ok_iff.mpr .done] at ran
  rw [loadText, TokenStream.ofText, Lexer.ofText, String.toList_ofList]
  exact ran

/-- Loading a root file that has not been read, with everything it includes, is the same
as reading its flattened text: that succeeds, wherever it is read, and gives the same
classes and map bounds. -/
theorem loadText_flatText {source : FileSource} {options : LoadOptions} {name : String}
    {db after : Database} (unlinked : options.linksBases = false)
    (unread : db.hasFile (source.identity (options.fileName name)) = false)
    (loaded : load source options name db = .ok () after) (other : FileSource)
    (others : LoadOptions) (label : String) :
    loadText other others label (flatText source options (options.fileName name) db) db =
      .ok () { after with files := db.files } := by
  obtain ⟨_, middle, ran, linked⟩ := exists_of_bind loaded
  rw [unlinked, if_neg Bool.false_ne_true] at linked
  cases linked
  rcases unfolds_includeFile source options source.nesting _ db after ran with
    ⟨known, -⟩ | ⟨-, carries, -⟩
  · rw [unread] at known
    cases known
  · exact carries_all carries other others label

theorem includeFile_of_loaded {source : FileSource} {options : LoadOptions} {depth : Nat}
    {path : String} {bytes : List UInt8} {db after : Database}
    (unread : db.hasFile (source.identity path) = false) (found : source.read path = .ok bytes)
    (loaded : Loaded options (includeFile source options depth) (.ofText (textOfUtf8Lossy bytes))
      (db.beginFile (source.identity path)) after) :
    includeFile source options (depth + 1) path db = .ok () after := by
  rw [includeFile_of_read unread found]
  exact loadStream_of_loaded loaded

namespace Cyclic

/-- Two files that include each other. -/
def files : MemoryFiles :=
  .ofList [("a", utf8 "@include b\n@mapsize(-8, 8)"), ("b", utf8 "@include a")]

def options : LoadOptions := ⟨"", false⟩

def word (text : String) (start : Nat) : Token :=
  ⟨.string, text, ⟨start, start + text.utf8ByteSize, 1, start + 1⟩⟩

theorem ofText_a : TokenStream.ofText "@include b\n@mapsize(-8, 8)" =
    .token (word "@include" 0) (ahead [word "b" 9] (ahead [⟨.newline, "\n", ⟨10, 11, 1, 11⟩⟩]
      (ahead [⟨.string, "@mapsize", ⟨11, 19, 2, 1⟩⟩, ⟨.parenArgs, "-8, 8", ⟨19, 26, 2, 9⟩⟩]
        (.exhausted ⟨26, 26, 2, 16⟩)))) := by
  cbv

theorem ofText_b : TokenStream.ofText "@include a" =
    .token (word "@include" 0) (ahead [word "a" 9] (.exhausted ⟨10, 10, 1, 11⟩)) := by
  cbv

def after : Database := ⟨∅, -8, 8, ["a", "b"]⟩

theorem toList_contents : files.contents.toList =
    [("a", utf8 "@include b\n@mapsize(-8, 8)"), ("b", utf8 "@include a")] := by
  have added : files.contents = OrderedMap.ofList
      [(normalizePath "a", utf8 "@include b\n@mapsize(-8, 8)"),
        (normalizePath "b", utf8 "@include a")] := rfl
  rw [added, OrderedMap.ofList, OrderedMap.toList_foldl_insert (by decide)]
  rfl

theorem read_a : files.source.read "a" = .ok (utf8 "@include b\n@mapsize(-8, 8)") := by
  have found : files.contents.get? (normalizePath "a") =
      some (utf8 "@include b\n@mapsize(-8, 8)") :=
    OrderedMap.get?_of_toList (i := 0) (by rw [toList_contents]; rfl)
  change files.read "a" = _
  rw [MemoryFiles.read, found]

theorem read_b : files.source.read "b" = .ok (utf8 "@include a") := by
  have found : files.contents.get? (normalizePath "b") = some (utf8 "@include a") :=
    OrderedMap.get?_of_toList (i := 1) (by rw [toList_contents]; rfl)
  change files.read "b" = _
  rw [MemoryFiles.read, found]

/-- The second file finds the first one read. -/
theorem include_b : includeFile files.source options 1 "b" ⟨∅, 0, 0, ["a"]⟩ =
    .ok () ⟨∅, 0, 0, ["a", "b"]⟩ := by
  refine includeFile_of_loaded rfl read_b ?_
  have again : includeFile files.source options 0 "a" ⟨∅, 0, 0, ["a", "b"]⟩ =
      .ok () ⟨∅, 0, 0, ["a", "b"]⟩ := includeFile_of_known rfl
  rw [textOfUtf8Lossy_utf8, ofText_b]
  exact .included (.intro rfl rfl ⟨[], rfl, nofun, rfl⟩) again .done

theorem load_a : load files.source options "a" ∅ = .ok () after := by
  have two : files.source.nesting = 2 := by
    change files.contents.size = 2
    rw [← OrderedMap.length_toList, toList_contents]
    rfl
  have read : includeFile files.source options 2 (options.fileName "a") ∅ = .ok () after := by
    refine includeFile_of_loaded rfl read_a ?_
    rw [textOfUtf8Lossy_utf8, ofText_a]
    have sized : Stated [⟨.string, "@mapsize", ⟨11, 19, 2, 1⟩⟩,
        ⟨.parenArgs, "-8, 8", ⟨19, 26, 2, 9⟩⟩] (·.setMapSize (-8) 8) :=
      .mapSize rfl (.mapSize (by decide) ⟨[], rfl, nofun, rfl⟩ (by decide))
    exact .included (.intro rfl rfl ⟨[], rfl, nofun, rfl⟩) include_b
      (.stated (.lineBreak rfl) (.stated sized .done))
  rw [load, two]
  exact bind_of_ran read

end Cyclic

theorem loadText_flatText_cyclic :
    load Cyclic.files.source Cyclic.options "a" ∅ = .ok () Cyclic.after ∧
      loadText MemoryFiles.empty.source .standard "flat"
          (flatText Cyclic.files.source Cyclic.options (Cyclic.options.fileName "a") ∅) ∅ =
        .ok () ⟨∅, -8, 8, []⟩ :=
  ⟨Cyclic.load_a, loadText_flatText rfl rfl Cyclic.load_a _ _ _⟩

end Source
end EntitySchema
