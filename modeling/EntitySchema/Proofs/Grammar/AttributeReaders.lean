import EntitySchema.Proofs.Grammar.Sentences

/-! The reader of attributes accepts rows of attributes together with the token that
ends them, which may be of more kinds than any line is meant to end with. -/
namespace EntitySchema.Grammar

open TokenStream (ahead)

/-- What ends a row of attributes, before the callers have had their say. -/
def Closes (kind : TokenKind) : Prop := Tolerated kind ∨ kind = .equals

theorem tolerated_iff {kind : TokenKind} : Tolerated kind ↔ Closes kind ∧ kind ≠ .equals := by
  cases kind <;> simp [Closes, Tolerated, EndsLine]

/-- Attributes up to and including the token behind them. -/
inductive Fields (awaiting : Awaiting) : List Token → List String × Token → Prop
  | intro {front : List Token} {texts : List String} {last : Token} :
      Attributes awaiting front texts → Closes last.kind →
      Fields awaiting (front ++ [last]) (texts, last)

theorem readAttributes_breaks {awaiting : Awaiting} {breaks : List Token} (empty : Breaks breaks)
    (waits : awaiting ≠ .separator) (held : List String) (stream : TokenStream) :
    readAttributes awaiting held (ahead breaks stream) = readAttributes awaiting held stream := by
  induction breaks with
  | nil => rfl
  | cons head breaks ih =>
    have lineBreak := empty head List.mem_cons_self
    rw [← ih fun token inside => empty token (List.mem_cons_of_mem _ inside)]
    cases awaiting
    · exact (waits rfl).elim
    · simp [readAttributes, lineBreak]
    · simp [readAttributes, lineBreak]

theorem readAttributes_joined {text whole : String} {joined : List Token}
    (pieces : Joined text joined whole) (held : List String) (stream : TokenStream) :
    readAttributes .separator (text :: held) (ahead joined stream) =
      readAttributes .separator (whole :: held) stream := by
  induction pieces with
  | done => rfl
  | piece plus empty piece _ ih =>
    rw [← ih, TokenStream.ahead_cons, TokenStream.ahead_append, readAttributes]
    simp only [plus, List.isEmpty_cons, Bool.false_eq_true, if_false]
    rw [readAttributes_breaks empty (by decide), TokenStream.ahead_cons, readAttributes]
    simp only [piece, joinPiece]

theorem readAttributes_of_attributes {awaiting : Awaiting} {tokens : List Token}
    {texts : List String} {last : Token} (attributes : Attributes awaiting tokens texts)
    (closes : Closes last.kind) (held : List String) (rest : TokenStream) :
    readAttributes awaiting held (ahead (tokens ++ [last]) rest) =
      .ok (held.reverse ++ texts, last) rest := by
  induction attributes generalizing held with
  | done =>
    rcases closes with ((newline | bracket) | arguments | bracket) | equals <;>
      simp [readAttributes, *]
  | colon token _ ih => simpa [readAttributes, token] using ih held
  | blank token _ ih => simpa [readAttributes, token] using ih ("" :: held)
  | skip token _ ih => simpa [readAttributes, token] using ih held
  | text first pieces _ ih =>
    simp only [List.cons_append, List.append_assoc, TokenStream.ahead_cons,
      TokenStream.ahead_append, readAttributes, first] at ih ⊢
    rw [readAttributes_joined pieces, ih]
    simp

/-- What a reader of attributes has still to find: `held` are those it has, in reverse,
the last of which may go on behind a plus sign. -/
def Remaining : Awaiting → List String → List Token → List String → Prop
  | .attribute, held, tokens, texts =>
    ∃ new, Attributes .attribute tokens new ∧ texts = held.reverse ++ new
  | .separator, [], tokens, texts => Attributes .separator tokens texts
  | .separator, text :: held, tokens, texts =>
    ∃ joined whole others new, tokens = joined ++ others ∧ Joined text joined whole ∧
      Attributes .separator others new ∧ texts = held.reverse ++ whole :: new
  | .piece, [], _, _ => True
  | .piece, text :: held, tokens, texts =>
    ∃ breaks piece joined whole others new, tokens = breaks ++ piece :: (joined ++ others) ∧
      Breaks breaks ∧ piece.kind = .string ∧ Joined (text ++ piece.text) joined whole ∧
      Attributes .separator others new ∧ texts = held.reverse ++ whole :: new

/-- In every state, what is read are attributes of the grammar: the one held last may go on,
so they are not read one whole attribute after the other. -/
theorem remaining_of_readAttributes {awaiting : Awaiting} {held texts : List String}
    {last : Token} {stream rest : TokenStream}
    (read : readAttributes awaiting held stream = .ok (texts, last) rest) :
    ∃ tokens, stream = ahead (tokens ++ [last]) rest ∧ Remaining awaiting held tokens texts ∧
      Closes last.kind := by
  fun_induction readAttributes with
  | case1 => cases read
  | case2 held token more colon ih =>
    obtain ⟨tokens, rfl, ⟨new, attributes, rfl⟩, closes⟩ := ih read
    refine ⟨token :: tokens, rfl, ?_, closes⟩
    cases held with
    | nil => exact .colon colon attributes
    | cons text held =>
      exact ⟨[], text, token :: tokens, new, rfl, .done text, .colon colon attributes, by simp⟩
  | case3 => cases read
  | case4 held token more plus some ih =>
    obtain ⟨tokens, rfl, remaining, closes⟩ := ih read
    refine ⟨token :: tokens, rfl, ?_, closes⟩
    cases held with
    | nil => simp at some
    | cons text held =>
      obtain ⟨breaks, piece, joined, whole, others, new, rfl, empty, string, pieces, attributes,
        rfl⟩ := remaining
      exact ⟨token :: (breaks ++ piece :: joined), whole, others, new, by simp,
        .piece plus empty string pieces, attributes, rfl⟩
  | case5 => cases read
  | case6 held token more string colon plus stop =>
    -- any other token ends the row, whatever its kind
    cases read
    refine ⟨[], rfl, ?_, ?_⟩
    · cases held with
      | nil => exact .done
      | cons text held => exact ⟨[], text, [], [], rfl, .done text, .done, by simp⟩
    · cases kind : last.kind <;> simp_all [Closes, Tolerated, EndsLine]
  | case7 held token more string ih =>
    obtain ⟨tokens, rfl, ⟨joined, whole, others, new, rfl, pieces, attributes, rfl⟩, closes⟩ :=
      ih read
    exact ⟨token :: (joined ++ others), rfl, ⟨whole :: new, .text string pieces attributes, rfl⟩,
      closes⟩
  | case8 held token more colon ih =>
    obtain ⟨tokens, rfl, ⟨new, attributes, rfl⟩, closes⟩ := ih read
    exact ⟨token :: tokens, rfl, ⟨"" :: new, .blank colon attributes, by simp⟩, closes⟩
  | case9 => cases read
  | case10 held token more lineBreak ih =>
    obtain ⟨tokens, rfl, ⟨new, attributes, rfl⟩, closes⟩ := ih read
    exact ⟨token :: tokens, rfl, ⟨new, .skip lineBreak attributes, rfl⟩, closes⟩
  | case11 => cases read
  | case12 held token more string ih =>
    cases held with
    | nil =>
      obtain ⟨tokens, rfl, _, closes⟩ := ih read
      exact ⟨token :: tokens, rfl, True.intro, closes⟩
    | cons text held =>
      obtain ⟨tokens, rfl, ⟨joined, whole, others, new, rfl, pieces, attributes, rfl⟩, closes⟩ :=
        ih read
      exact ⟨token :: (joined ++ others), rfl,
        ⟨[], token, joined, whole, others, new, rfl, by simp [Breaks], string, pieces, attributes,
          rfl⟩, closes⟩
  | case13 held token more lineBreak ih =>
    obtain ⟨tokens, rfl, remaining, closes⟩ := ih read
    refine ⟨token :: tokens, rfl, ?_, closes⟩
    cases held with
    | nil => exact True.intro
    | cons text held =>
      obtain ⟨breaks, piece, joined, whole, others, new, rfl, empty, found⟩ := remaining
      exact ⟨token :: breaks, piece, joined, whole, others, new, rfl,
        List.forall_mem_cons.mpr ⟨lineBreak, empty⟩, found⟩
  | case14 => cases read
  | case15 => cases read
  | case16 => cases read

theorem accepts_readAttributes {awaiting : Awaiting} (starts : awaiting ≠ .piece) :
    Accepts (readAttributes awaiting []) (Fields awaiting) := by
  intro stream fields rest
  constructor
  · intro read
    obtain ⟨tokens, rfl, remaining, closes⟩ := remaining_of_readAttributes read
    refine ⟨tokens ++ [fields.2], rfl, ?_⟩
    cases awaiting
    · exact .intro remaining closes
    · obtain ⟨new, attributes, same⟩ := remaining
      rw [List.reverse_nil, List.nil_append] at same
      rw [← same] at attributes
      exact .intro attributes closes
    · exact (starts rfl).elim
  · rintro ⟨_, rfl, attributes, closes⟩
    exact readAttributes_of_attributes attributes closes [] rest

end EntitySchema.Grammar
