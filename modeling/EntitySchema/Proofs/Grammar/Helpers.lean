import EntitySchema.Proofs.Grammar.RoundTrip
import EntitySchema.Proofs.MemoryFiles

/-! The helpers mentioned in the head of a class, in the order in which they stand there: which
keywords and arguments they are read from, which of them are kept as bases, and what becomes of
a head that goes on with something else. -/
namespace EntitySchema

namespace Text

theorem isBlank_of_isAlpha {c : Char} (letter : c.isAlpha = true) : isBlank c = false := by
  rw [Bool.eq_false_iff]
  intro blank
  have apart : ∀ n ∈ blanks, n < 0x41 ∨ 0x7a < n := by decide
  have bounds := toNat_of_isAlpha letter
  have beyond := apart c.toNat (mem_blanks_of_isBlank blank)
  omega

theorem isBlank_of_isSmall_toLower {c : Char} (small : isSmall c.toLower = true) :
    isBlank c = false := by
  cases letter : c.isAlpha with
  | true => exact isBlank_of_isAlpha letter
  | false =>
    rw [toLower_eq_self letter] at small
    exact isBlank_of_isBareWord (isBareWord_of_isSmall small)

end Text

/-- A keyword is known in capital and in small letters of ASCII. -/
theorem fold_trimmed_of_letters {text keyword : String} (known : isKeyword keyword = true)
    (same : text.toList.map Char.toLower = keyword.toList) : fold (trimmed text) = keyword := by
  obtain ⟨-, small⟩ := isKeyword_iff.mp known
  have solid : ∀ c ∈ text.toList, Text.isBlank c = false := by
    intro c member
    exact Text.isBlank_of_isSmall_toLower (small _ (same ▸ List.mem_map_of_mem member))
  have bare : trimmed text = text := trimmed_eq_self_iff.mpr (Text.bareEnds_of_solid solid)
  rw [bare, fold, ← Text.lowercase_map_toLower, same]
  exact fold_of_isKeyword known

namespace Grammar

open TokenStream (ahead)

/-- The arguments in a text: none if it is blank, and else the parts between its commas without
the blanks around them. -/
inductive Holds : String → List String → Prop
  | blank {text : String} : (∀ c ∈ text.toList, Text.isBlank c = true) → Holds text []
  | parts {parts : List String} : (∀ part ∈ parts, ',' ∉ part.toList) →
      (∃ c ∈ (joined parts).toList, Text.isBlank c = false) →
      Holds (joined parts) (parts.map trimmed)

theorem holds_splitArguments (text : String) : Holds text (splitArguments text) := by
  by_cases blank : Text.trim text.toList = []
  · rw [splitArguments, if_pos (List.isEmpty_iff.mpr blank)]
    exact .blank (Text.trim_eq_nil_iff.mp blank)
  · let parts := (text.toList.splitOn ',').map String.ofList
    have spelled : joined parts = text := by
      simp [parts, joined, List.map_map, Function.comp_def, List.intercalate_splitOn]
    have held : splitArguments text = parts.map trimmed := by
      rw [splitArguments, if_neg (mt List.isEmpty_iff.mp blank)]
      simp [parts, trimmed]
    have solid : ∃ c ∈ (joined parts).toList, Text.isBlank c = false := by
      simpa [Text.trim_eq_nil_iff, spelled] using blank
    have apart : ∀ part ∈ parts, ',' ∉ part.toList := by
      intro part member
      obtain ⟨letters, inside, rfl⟩ := List.mem_map.mp member
      rw [String.toList_ofList]
      exact FilePath.not_mem_splitOn ',' _ letters inside
    have holds := Holds.parts apart solid
    rwa [spelled, ← held] at holds

theorem splitArguments_of_holds {text : String} {arguments : List String}
    (holds : Holds text arguments) : splitArguments text = arguments := by
  cases holds with
  | blank blank => rw [splitArguments, Text.trim_eq_nil_iff.mpr blank]; rfl
  | @parts parts apart solid =>
    have some : parts ≠ [] := by
      rintro rfl
      obtain ⟨c, inside, -⟩ := solid
      cases inside
    have split : (joined parts).toList.splitOn ',' = parts.map String.toList := by
      rw [joined, String.toList_ofList]
      exact List.splitOn_intercalate ',' (List.forall_mem_map.mpr apart) (by simpa using some)
    have filled : Text.trim (joined parts).toList ≠ [] := by
      simpa [Text.trim_eq_nil_iff] using solid
    rw [splitArguments, if_neg (mt List.isEmpty_iff.mp filled), split, List.map_map]
    rfl

/-- A class with what the helpers in its head come to: those that name bases are kept as these
bases, each where it is named first, and the others as they are. -/
def entered (category : Category) (helpers : List Helper) : EntityClass :=
  { EntityClass.plain category "" with
    helpers := helpers.filter (·.kind ≠ .inherit)
    bases := (((helpers.filter (·.kind = .inherit)).flatMap Helper.arguments).map
      EntityClass.baseNamed).eraseDups }

theorem entered_concat (category : Category) (helpers : List Helper) (kind : HelperKind)
    (arguments : List String) :
    entered category (helpers ++ [⟨kind, arguments⟩]) =
      enterHelper (entered category helpers) kind arguments := by
  by_cases inherits : kind = .inherit
  · have added : enterHelper (entered category helpers) .inherit arguments = _ :=
      EntityClass.foldl_addBase_eraseDups (entered category helpers) _ arguments
    rw [inherits, added]
    simp [entered]
  · rw [enterHelper_of_ne inherits]
    simp [entered, EntityClass.addHelper, inherits]

theorem readHelpers_breaks {breaks : List Token} (empty : Breaks breaks) (entity : EntityClass)
    (pending : Option HelperKind) (rest : TokenStream) :
    readHelpers entity pending (ahead breaks rest) = readHelpers entity pending rest := by
  induction breaks with
  | nil => rfl
  | cons token breaks ih =>
    obtain ⟨lineBreak, others⟩ := List.forall_mem_cons.mp empty
    simpa [readHelpers, lineBreak] using ih others

/-- Helpers one behind the other with line breaks anywhere between the tokens, and the one of
them whose keyword stands directly before what follows. -/
inductive Mentions : List Token → List Helper → Option HelperKind → Prop
  | start {breaks : List Token} : Breaks breaks → Mentions breaks [] none
  | bare {front breaks : List Token} {helpers : List Helper} {before : Option HelperKind}
      {word : Token} {kind : HelperKind} :
      Mentions front helpers before → word.kind = .string →
      fold (trimmed word.text) = kind.keyword → Breaks breaks →
      Mentions (front ++ word :: breaks) (helpers ++ [⟨kind, []⟩]) (some kind)
  | grouped {front breaks after : List Token} {helpers : List Helper}
      {before : Option HelperKind} {word group : Token} {kind : HelperKind}
      {arguments : List String} :
      Mentions front helpers before → word.kind = .string →
      fold (trimmed word.text) = kind.keyword → Breaks breaks → group.kind = .parenArgs →
      Holds group.text arguments → Breaks after →
      Mentions (front ++ word :: (breaks ++ group :: after)) (helpers ++ [⟨kind, arguments⟩]) none

namespace Mentions

variable {front : List Token} {helpers : List Helper} {before : Option HelperKind}

theorem lineBreak {token : Token} (mentions : Mentions front helpers before)
    (newline : token.kind = .newline) : Mentions (front ++ [token]) helpers before := by
  have longer : ∀ {breaks : List Token}, Breaks breaks → Breaks (breaks ++ [token]) :=
    fun empty => List.forall_mem_append.mpr ⟨empty, List.forall_mem_singleton.mpr newline⟩
  cases mentions with
  | start empty => exact .start (longer empty)
  | bare mentions string known empty =>
    simpa using Mentions.bare mentions string known (longer empty)
  | grouped mentions string known empty group holds after =>
    simpa using Mentions.grouped mentions string known empty group holds (longer after)

/-- A group of arguments goes with the keyword before it. -/
theorem group {token : Token} {kind : HelperKind} (mentions : Mentions front helpers (some kind))
    (group : token.kind = .parenArgs) : ∃ helpers, Mentions (front ++ [token]) helpers none := by
  cases mentions with
  | bare mentions string known empty =>
    have grouped := mentions.grouped string known empty group (holds_splitArguments token.text)
      (List.forall_mem_nil _)
    exact ⟨_, by simpa using grouped⟩

/-- Behind helpers that have been mentioned, all but the one that still may get arguments have
been entered. -/
theorem exists_readHelpers (mentions : Mentions front helpers before) (category : Category) :
    ∃ entity, enterPending entity before = entered category helpers ∧
      ∀ rest, readHelpers (.plain category "") none (ahead front rest) =
        readHelpers entity before rest := by
  -- the keyword held back is entered by the next one, by its arguments or at the end, so the
  -- invariant is about the class with it
  induction mentions with
  | start empty => exact ⟨.plain category "", rfl, readHelpers_breaks empty _ none⟩
  | @bare front breaks helpers before word kind _ string known empty ih =>
    obtain ⟨entity, made, read⟩ := ih
    refine ⟨entered category helpers, (entered_concat ..).symm, fun rest => ?_⟩
    have found := HelperKind.ofKeyword?_eq_some_iff.mpr known
    simp only [TokenStream.ahead_append, TokenStream.ahead_cons, read, readHelpers, string, found,
      made, readHelpers_breaks empty]
  | @grouped front breaks after helpers before word group kind arguments _ string known empty
      isGroup holds behind ih =>
    obtain ⟨entity, made, read⟩ := ih
    refine ⟨entered category (helpers ++ [⟨kind, arguments⟩]), rfl, fun rest => ?_⟩
    have found := HelperKind.ofKeyword?_eq_some_iff.mpr known
    simp only [TokenStream.ahead_append, TokenStream.ahead_cons, read, readHelpers, string, found,
      made, readHelpers_breaks empty, isGroup, splitArguments_of_holds holds,
      readHelpers_breaks behind, entered_concat]

end Mentions

/-- What becomes of the head of a class up to its equals sign. -/
inductive Enters (category : Category) :
    TokenStream → EStateM.Result Fault TokenStream EntityClass → Prop
  | complete {front : List Token} {helpers : List Helper} {before : Option HelperKind}
      {equals : Token} (rest : TokenStream) :
      Mentions front helpers before → equals.kind = .equals →
      Enters category (ahead (front ++ [equals]) rest) (.ok (entered category helpers) rest)
  | unknown {front : List Token} {helpers : List Helper} {before : Option HelperKind}
      {word : Token} (rest : TokenStream) :
      Mentions front helpers before → word.kind = .string →
      (∀ kind : HelperKind, fold (trimmed word.text) ≠ kind.keyword) →
      Enters category (ahead (front ++ [word]) rest)
        (.error (word.semantic (.unknownHelper word.text)) rest)
  | ungrouped {front : List Token} {helpers : List Helper} {group : Token}
      (rest : TokenStream) :
      Mentions front helpers none → group.kind = .parenArgs →
      Enters category (ahead (front ++ [group]) rest)
        (.error (group.malformed (.argumentsWithoutHelper group.text)) rest)
  | stray {front : List Token} {helpers : List Helper} {before : Option HelperKind}
      {token : Token} (rest : TokenStream) :
      Mentions front helpers before →
      token.kind ∈ [.colon, .plus, .bracketOpen, .bracketClose] →
      Enters category (ahead (front ++ [token]) rest) (.error token.unexpected rest)
  | ended {front : List Token} {helpers : List Helper} {before : Option HelperKind}
      {last : Token} (rest : TokenStream) :
      Mentions front helpers before → last.kind = .endOfInput →
      Enters category (ahead (front ++ [last]) rest)
        (.error (last.malformed .headerNeverEnded) rest)
  | exhausted {front : List Token} {helpers : List Helper} {before : Option HelperKind}
      (span : Span) :
      Mentions front helpers before →
      Enters category (ahead front (.exhausted span))
        (.error ((Token.endOfInput span).malformed .headerNeverEnded) (.exhausted span))
  | unread {front : List Token} {helpers : List Helper} {before : Option HelperKind}
      (fault : Fault) (resume : Lexer) :
      Mentions front helpers before →
      Enters category (ahead front (.failed fault resume)) (.error fault resume.stream)

theorem Enters.readHelpers {category : Category} {stream : TokenStream}
    {result : EStateM.Result Fault TokenStream EntityClass}
    (enters : Enters category stream result) :
    readHelpers (.plain category "") none stream = result := by
  cases enters with
  | complete rest mentions equals =>
    obtain ⟨entity, made, read⟩ := mentions.exists_readHelpers category
    simp [read, Grammar.readHelpers, equals, made]
  | unknown rest mentions string unknown =>
    obtain ⟨entity, made, read⟩ := mentions.exists_readHelpers category
    simp [read, Grammar.readHelpers, string, HelperKind.ofKeyword?_eq_none_iff.mpr unknown]
  | ungrouped rest mentions group =>
    obtain ⟨entity, made, read⟩ := mentions.exists_readHelpers category
    simp [read, Grammar.readHelpers, group]
  | stray rest mentions stray =>
    obtain ⟨entity, made, read⟩ := mentions.exists_readHelpers category
    simp only [List.mem_cons, List.not_mem_nil, or_false] at stray
    rw [TokenStream.ahead_append, read]
    rcases stray with colon | plus | bracket | bracket <;> simp [Grammar.readHelpers, *]
  | ended rest mentions ended =>
    obtain ⟨entity, made, read⟩ := mentions.exists_readHelpers category
    simp [read, Grammar.readHelpers, ended]
  | exhausted span mentions =>
    obtain ⟨entity, made, read⟩ := mentions.exists_readHelpers category
    rw [read, Grammar.readHelpers]
  | unread fault resume mentions =>
    obtain ⟨entity, made, read⟩ := mentions.exists_readHelpers category
    rw [read, Grammar.readHelpers]

/-- Whatever follows helpers that have been mentioned, something becomes of the head. -/
theorem Mentions.exists_enters {front : List Token} {helpers : List Helper}
    {before : Option HelperKind} (mentions : Mentions front helpers before) (category : Category)
    (stream : TokenStream) : ∃ result, Enters category (ahead front stream) result := by
  induction stream generalizing front helpers before with
  | exhausted span => exact ⟨_, .exhausted span mentions⟩
  | failed fault resume => exact ⟨_, .unread fault resume mentions⟩
  | token token rest ih =>
    have shifted : ahead front (.token token rest) = ahead (front ++ [token]) rest := by simp
    rw [shifted]
    cases kind : token.kind with
    | newline => exact ih (mentions.lineBreak kind)
    | equals => exact ⟨_, .complete rest mentions kind⟩
    | endOfInput => exact ⟨_, .ended rest mentions kind⟩
    | colon | plus | bracketOpen | bracketClose =>
      exact ⟨_, .stray rest mentions (by simp [kind])⟩
    | string =>
      by_cases known : ∃ kind : HelperKind, fold (trimmed token.text) = kind.keyword
      · obtain ⟨helper, known⟩ := known
        exact ih (mentions.bare kind known (List.forall_mem_nil _))
      · exact ⟨_, .unknown rest mentions kind (not_exists.mp known)⟩
    | parenArgs =>
      cases before with
      | none => exact ⟨_, .ungrouped rest mentions kind⟩
      | some helper =>
        obtain ⟨helpers, grouped⟩ := mentions.group kind
        exact ih grouped

/-- The reader of the helpers in a head does on every stream what becomes of the head, and knows
the keywords in capital letters as well. -/
theorem helpers_entered :
    (∀ (category : Category) (stream : TokenStream)
        (result : EStateM.Result Fault TokenStream EntityClass),
      readHelpers (.plain category "") none stream = result ↔ Enters category stream result) ∧
      ∀ (kind : HelperKind) (text : String),
        text.toList.map Char.toLower = kind.keyword.toList →
          fold (trimmed text) = kind.keyword := by
  refine ⟨fun category stream result => ⟨?_, Enters.readHelpers⟩, fun kind text same => ?_⟩
  · rintro rfl
    have start : Mentions [] [] none := .start (List.forall_mem_nil _)
    obtain ⟨result, enters⟩ := start.exists_enters category stream
    rwa [TokenStream.ahead_nil, ← enters.readHelpers] at enters
  · exact fold_trimmed_of_letters kind.isKeyword_keyword same

end Grammar
end EntitySchema
