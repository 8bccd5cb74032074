import EntitySchema.Proofs.Grammar.AttributeReaders
import Mathlib.Data.List.Forall2

/-! Rows of attributes taken one by one: each has a colon of its own and is left empty or holds
strings joined to one text, and the last one is not left empty. The reader of attributes accepts
these rows with the token that closes them, from their first colon on or from behind it, and
reads no token behind the end of its source. -/
namespace EntitySchema.Grammar

open TokenStream (ahead)

/-- An attribute with its colon, which is left empty or has a text. -/
inductive Slot : List Token → Option String → Prop
  | empty {colon : Token} {breaks : List Token} :
      colon.kind = .colon → Breaks breaks → Slot (colon :: breaks) none
  | filled {colon first : Token} {breaks joined : List Token} {whole : String} :
      colon.kind = .colon → Breaks breaks → first.kind = .string →
      Joined first.text joined whole → Slot (colon :: (breaks ++ first :: joined)) (some whole)

/-- Attributes one behind the other, of which the last one is not left empty. -/
inductive Slots : List Token → List String → Prop
  | row {rows : List (List Token)} {slots : List (Option String)} :
      List.Forall₂ Slot rows slots → slots.getLast? ≠ some none →
      Slots rows.flatten (slots.map (·.getD ""))

/-- Attributes that go on behind some tokens, up to and including the token that closes them. -/
inductive ClosedSlots (before : List Token) : List Token → List String × Token → Prop
  | intro {front : List Token} {texts : List String} {last : Token} :
      Slots (before ++ front) texts → Closes last.kind →
      ClosedSlots before (front ++ [last]) (texts, last)

variable {tokens : List Token} {texts : List String}

section

variable {colon : Token} {breaks : List Token} (begins : colon.kind = .colon)
  (empty : Breaks breaks)

include begins empty

theorem Slots.blank (slots : Slots tokens texts) (more : tokens ≠ []) :
    Slots (colon :: (breaks ++ tokens)) ("" :: texts) := by
  obtain @⟨rows, slots, each, filled⟩ := slots
  have added : Slots ((colon :: breaks) :: rows).flatten ((none :: slots).map (·.getD "")) := by
    refine .row (.cons (.empty begins empty) each) ?_
    cases each with
    | nil => exact (more rfl).elim
    | cons first others => exact filled
  simpa using added

theorem Slots.text {first : Token} {joined : List Token} {whole : String}
    (string : first.kind = .string) (pieces : Joined first.text joined whole)
    (slots : Slots tokens texts) :
    Slots (colon :: (breaks ++ first :: (joined ++ tokens))) (whole :: texts) := by
  obtain @⟨rows, slots, each, filled⟩ := slots
  have slot : Slot (colon :: (breaks ++ first :: joined)) (some whole) :=
    .filled begins empty string pieces
  have added : Slots ((colon :: (breaks ++ first :: joined)) :: rows).flatten
      ((some whole :: slots).map (·.getD "")) := by
    refine .row (.cons slot each) ?_
    cases slots with
    | nil => simp
    | cons slot slots => exact filled
  simpa using added

end

/-- Read from the start, or from behind a colon and some line breaks, attributes fill slots. -/
def Fills : Awaiting → List Token → List String → Prop
  | .separator, tokens, texts => Slots tokens texts
  | .attribute, tokens, texts => ∀ (colon : Token) (breaks : List Token),
    colon.kind = .colon → Breaks breaks → Slots (colon :: (breaks ++ tokens)) texts
  | .piece, _, _ => True

theorem fills_of_attributes {awaiting : Awaiting}
    (attributes : Attributes awaiting tokens texts) : Fills awaiting tokens texts := by
  -- a slot is known only with its colon, which the induction on what follows has behind it
  induction attributes with
  | done =>
    have nothing : List.Forall₂ Slot [] [] := .nil
    exact .row nothing (by simp)
  | @colon token tokens texts begins _ ih => exact ih token [] begins (List.forall_mem_nil _)
  | @blank token tokens texts begins _ ih =>
    intro colon breaks opens empty
    exact (ih token [] begins (List.forall_mem_nil _)).blank opens empty (List.cons_ne_nil _ _)
  | @skip token tokens texts lineBreak _ ih =>
    intro colon breaks opens empty
    have longer : Breaks (breaks ++ [token]) :=
      List.forall_mem_append.mpr ⟨empty, List.forall_mem_singleton.mpr lineBreak⟩
    simpa using ih colon (breaks ++ [token]) opens longer
  | @text first joined tokens whole texts string pieces _ ih =>
    intro colon breaks opens empty
    exact ih.text opens empty string pieces

theorem attributes_breaks {breaks : List Token} (empty : Breaks breaks)
    (attributes : Attributes .attribute tokens texts) :
    Attributes .attribute (breaks ++ tokens) texts := by
  induction breaks with
  | nil => exact attributes
  | cons token breaks ih =>
    obtain ⟨lineBreak, others⟩ := List.forall_mem_cons.mp empty
    exact .skip lineBreak (ih others)

/-- An attribute is left empty in front of the colon of another one. -/
theorem attributes_blank (attributes : Attributes .separator tokens texts) (more : tokens ≠ []) :
    Attributes .attribute tokens ("" :: texts) := by
  cases attributes with
  | done => exact (more rfl).elim
  | colon begins attributes => exact .blank begins attributes

theorem attributes_of_slots (slots : Slots tokens texts) :
    Attributes .separator tokens texts := by
  obtain @⟨rows, slots, each, filled⟩ := slots
  induction each with
  | nil => exact .done
  | @cons row slot rows slots first others ih =>
    cases first with
    | @empty colon breaks begins empty =>
      cases others with
      | nil => simp at filled
      | @cons row slot rows slots second others =>
        have behind := ih (by simpa using filled)
        have more : (row :: rows).flatten ≠ [] := by
          cases second <;> simp
        have blank := attributes_breaks empty (attributes_blank behind more)
        simpa using Attributes.colon begins blank
    | @filled colon first breaks joined whole begins empty string pieces =>
      have last : slots.getLast? ≠ some none := by
        cases slots with
        | nil => simp
        | cons slot slots => simpa using filled
      have text := attributes_breaks empty (.text string pieces (ih last))
      simpa using Attributes.colon begins text

theorem attributes_iff_slots : Attributes .separator tokens texts ↔ Slots tokens texts :=
  ⟨fills_of_attributes, attributes_of_slots⟩

theorem attributes_iff_slots_cons {colon : Token} (begins : colon.kind = .colon) :
    Attributes .attribute tokens texts ↔ Slots (colon :: tokens) texts := by
  constructor
  · intro attributes
    exact fills_of_attributes attributes colon [] begins (List.forall_mem_nil _)
  · intro slots
    cases attributes_of_slots slots with
    | colon _ attributes => exact attributes

/-- The end of a source, and what is left when it has been read: the end itself or, if a token
marks it, what stands behind that token. -/
inductive Stops : TokenStream → TokenStream → Prop
  | exhausted (span : Span) : Stops (.exhausted span) (.exhausted span)
  | token {last : Token} (rest : TokenStream) :
      last.kind = .endOfInput → Stops (.token last rest) rest

/-- What a reader does with some tokens in front of the end of the source: it stops behind
some of them, or fails when it has read the end. -/
inductive Stays {α : Type} (parser : Parser α) (tokens : List Token) (stop after : TokenStream) :
    Prop
  | reads (front back : List Token) (value : α) :
      tokens = front ++ back → parser (ahead tokens stop) = .ok value (ahead back stop) →
      Stays parser tokens stop after
  | fails (front back : List Token) (fault : Fault) :
      tokens = front ++ back → parser (ahead tokens stop) = .error fault (ahead back stop) →
      Stays parser tokens stop after
  | ends (fault : Fault) : parser (ahead tokens stop) = .error fault after →
      Stays parser tokens stop after

theorem Stays.cons {α : Type} {parser next : Parser α} {token : Token} {stop after : TokenStream}
    (goesOn : parser (ahead (token :: tokens) stop) = next (ahead tokens stop))
    (stays : Stays next tokens stop after) : Stays parser (token :: tokens) stop after := by
  cases stays with
  | reads front back value split read =>
    exact .reads (token :: front) back value (congrArg _ split) (goesOn.trans read)
  | fails front back fault split failed =>
    exact .fails (token :: front) back fault (congrArg _ split) (goesOn.trans failed)
  | ends fault failed => exact .ends fault (goesOn.trans failed)

theorem stays_readAttributes (awaiting : Awaiting) (held : List String) (tokens : List Token)
    {stop after : TokenStream} (stops : Stops stop after) :
    Stays (readAttributes awaiting held) tokens stop after := by
  -- every state takes one token and goes on behind it, or is done with it
  induction tokens generalizing awaiting held with
  | nil =>
    cases stops with
    | exhausted span => exact .ends _ rfl
    | @token last rest ends =>
      refine .ends (awaiting.complaint last) ?_
      cases awaiting <;> simp [readAttributes, ends, Awaiting.complaint]
  | cons token tokens ih =>
    have failed : ∀ fault, readAttributes awaiting held (ahead (token :: tokens) stop) =
        .error fault (ahead tokens stop) →
          Stays (readAttributes awaiting held) (token :: tokens) stop after :=
      fun fault read => .fails [token] tokens fault rfl read
    rcases awaiting with _ | _ | _
    · cases kind : token.kind with
      | string =>
        exact failed (token.malformed (.tooManyStrings token.text)) (by simp [readAttributes, kind])
      | colon => exact (ih .attribute held).cons (by simp [readAttributes, kind])
      | plus =>
        cases held with
        | nil =>
          exact failed (token.malformed .plusWithoutString) (by simp [readAttributes, kind])
        | cons text held => exact (ih .piece (text :: held)).cons (by simp [readAttributes, kind])
      | endOfInput => exact failed token.unexpected (by simp [readAttributes, kind])
      | newline | equals | parenArgs | bracketOpen | bracketClose =>
        exact .reads [token] tokens (held.reverse, token) rfl (by simp [readAttributes, kind])
    · cases kind : token.kind with
      | string => exact (ih .separator (token.text :: held)).cons (by simp [readAttributes, kind])
      | colon => exact (ih .attribute ("" :: held)).cons (by simp [readAttributes, kind])
      | newline => exact (ih .attribute held).cons (by simp [readAttributes, kind])
      | plus =>
        exact failed (token.malformed .plusWithoutString) (by simp [readAttributes, kind])
      | equals | parenArgs | bracketOpen | bracketClose | endOfInput =>
        exact failed token.unexpected (by simp [readAttributes, kind])
    · cases kind : token.kind with
      | string =>
        exact (ih .separator (joinPiece token.text held)).cons (by simp [readAttributes, kind])
      | newline => exact (ih .piece held).cons (by simp [readAttributes, kind])
      | colon | plus | equals | parenArgs | bracketOpen | bracketClose | endOfInput =>
        exact failed (token.malformed (.expected .string token)) (by simp [readAttributes, kind])

/-- The reader of attributes accepts rows of slots with the token that closes them, whether or
not the first colon is still there to be read, and reads nothing behind the end of its source. -/
theorem accepts_closedSlots :
    Accepts (readAttributes .separator []) (ClosedSlots []) ∧
      (∀ colon : Token, colon.kind = .colon →
        Accepts (readAttributes .attribute []) (ClosedSlots [colon])) ∧
      ∀ (awaiting : Awaiting) (held : List String) (tokens : List Token)
        (stop after : TokenStream), Stops stop after →
          Stays (readAttributes awaiting held) tokens stop after := by
  have closed : ∀ (before : List Token) (awaiting : Awaiting),
      (∀ front texts, Attributes awaiting front texts ↔ Slots (before ++ front) texts) →
        ∀ tokens result, Fields awaiting tokens result ↔ ClosedSlots before tokens result := by
    intro before awaiting same tokens result
    constructor
    · rintro ⟨attributes, closes⟩
      exact .intro ((same _ _).mp attributes) closes
    · rintro ⟨slots, closes⟩
      exact .intro ((same _ _).mpr slots) closes
  refine ⟨fun stream result rest => ?_, fun colon begins stream result rest => ?_,
    fun awaiting held tokens stop after => stays_readAttributes awaiting held tokens⟩
  · rw [accepts_readAttributes (by decide) stream result rest]
    simp only [closed [] .separator fun front texts => attributes_iff_slots]
  · rw [accepts_readAttributes (by decide) stream result rest]
    simp only [closed [colon] .attribute fun front texts => attributes_iff_slots_cons begins]

example (span : Span) :
    readAttributes .attribute [] (ahead [⟨.string, "a", span⟩, ⟨.plus, "+", span⟩,
        ⟨.newline, "\n", span⟩, ⟨.string, "b", span⟩, ⟨.colon, ":", span⟩, ⟨.colon, ":", span⟩,
        ⟨.string, "c", span⟩, ⟨.bracketClose, "]", span⟩] (.exhausted span)) =
      .ok (["ab", "", "c"], ⟨.bracketClose, "]", span⟩) (.exhausted span) := by
  rfl

end EntitySchema.Grammar
