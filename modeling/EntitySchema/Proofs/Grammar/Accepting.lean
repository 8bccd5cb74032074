import EntitySchema.Grammar.Parser

/-! Parsers and the sentences they read. A grammar relates rows of tokens to what they
stand for; a parser accepts it if the rows it reads are exactly those, whatever comes
after them. -/
namespace EntitySchema

/-- A stream with further tokens in front. -/
def TokenStream.ahead (tokens : List Token) (rest : TokenStream) : TokenStream :=
  tokens.foldr token rest

namespace TokenStream

@[simp] theorem ahead_nil (rest : TokenStream) : ahead [] rest = rest := rfl

@[simp] theorem ahead_cons (head : Token) (tokens : List Token) (rest : TokenStream) :
    ahead (head :: tokens) rest = token head (ahead tokens rest) := rfl

@[simp] theorem ahead_append (first last : List Token) (rest : TokenStream) :
    ahead (first ++ last) rest = ahead first (ahead last rest) :=
  List.foldr_append

theorem ahead_injective {first last : List Token} {rest : TokenStream}
    (same : ahead first rest = ahead last rest) : first = last := by
  have lengths : ∀ tokens, (ahead tokens rest).length = tokens.length + rest.length := by
    intro tokens
    induction tokens with
    | nil => simp
    | cons head tokens ih =>
      rw [ahead_cons, length, ih, List.length_cons]
      omega
  induction first generalizing last with
  | nil =>
    have none := congrArg length same
    rw [lengths, lengths, List.length_nil] at none
    exact (List.eq_nil_of_length_eq_zero (by omega)).symm
  | cons head first ih =>
    cases last with
    | nil =>
      have none := congrArg length same
      rw [lengths, lengths, List.length_cons, List.length_nil] at none
      omega
    | cons other last =>
      obtain ⟨rfl, others⟩ : head = other ∧ ahead first rest = ahead last rest := by
        simpa using same
      rw [ih others]

end TokenStream

namespace Grammar

open TokenStream (ahead)

variable {α β : Type} {parser : Parser α} {grammar : List Token → α → Prop}

/-- A parser reads the sentences of a grammar and nothing else. -/
def Accepts (parser : Parser α) (grammar : List Token → α → Prop) : Prop :=
  ∀ stream value rest, parser stream = .ok value rest ↔
    ∃ tokens, stream = ahead tokens rest ∧ grammar tokens value

theorem pure_eq_ok_iff {value result : α} {stream rest : TokenStream} :
    (pure value : Parser α) stream = .ok result rest ↔ value = result ∧ stream = rest := by
  change EStateM.Result.ok value stream = .ok result rest ↔ _
  simp

/-- A check that has to be passed before a parser goes on. -/
theorem guard_eq_ok_iff {condition : Prop} [Decidable condition] {fault : Fault} {value : α}
    {stream rest : TokenStream} :
    (if condition then throw fault else parser : Parser α) stream = .ok value rest ↔
      ¬condition ∧ parser stream = .ok value rest := by
  by_cases holds : condition
  · rw [if_pos holds]
    constructor
    · intro ran
      cases ran
    · intro ran
      exact (ran.1 holds).elim
  · rw [if_neg holds]
    simp [holds]

namespace Accepts

theorem bind_eq_ok_iff (accepts : Accepts parser grammar) {next : α → Parser β} {result : β}
    {stream rest : TokenStream} :
    (parser >>= next) stream = .ok result rest ↔
      ∃ tokens value middle, stream = ahead tokens middle ∧ grammar tokens value ∧
        next value middle = .ok result rest := by
  change EStateM.bind parser next stream = _ ↔ _
  unfold EStateM.bind
  constructor
  · intro ran
    cases started : parser stream with
    | error fault middle =>
      rw [started] at ran
      cases ran
    | ok value middle =>
      rw [started] at ran
      obtain ⟨tokens, rfl, begins⟩ := (accepts _ _ _).mp started
      exact ⟨tokens, value, middle, rfl, begins, ran⟩
  · rintro ⟨tokens, value, middle, rfl, begins, follows⟩
    rw [(accepts _ _ _).mpr ⟨tokens, rfl, begins⟩]
    exact follows

end Accepts

/-- Rows of line breaks. -/
def Breaks (tokens : List Token) : Prop :=
  ∀ token ∈ tokens, token.kind = .newline

/-- A token of the given kind, with line breaks before it. -/
def Expected (kind : TokenKind) (tokens : List Token) (token : Token) : Prop :=
  ∃ breaks, tokens = breaks ++ [token] ∧ Breaks breaks ∧ token.kind = kind

theorem accepts_expect {kind : TokenKind} (more : kind ≠ .endOfInput) (solid : kind ≠ .newline) :
    Accepts (TokenStream.expect kind) (Expected kind) := by
  intro stream value rest
  constructor
  · intro read
    fun_induction TokenStream.expect with
    | case1 head tail fits =>
      cases read
      exact ⟨[_], rfl, [], rfl, by simp [Breaks], fits⟩
    | case2 head tail _ lineBreak ih =>
      obtain ⟨_, rfl, breaks, rfl, empty, fits⟩ := ih read
      exact ⟨head :: (breaks ++ [value]), rfl, head :: breaks, rfl,
        List.forall_mem_cons.mpr ⟨lineBreak, empty⟩, fits⟩
    | case3 => cases read
    | case4 span last fits => exact (more fits).elim
    | case5 => cases read
    | case6 => cases read
  · rintro ⟨_, rfl, breaks, rfl, empty, fits⟩
    induction breaks with
    | nil => exact if_pos fits
    | cons head breaks ih =>
      have lineBreak := empty head List.mem_cons_self
      have other : head.kind ≠ kind := fun same => solid (same.symm.trans lineBreak)
      rw [List.cons_append, TokenStream.ahead_cons, TokenStream.expect, if_neg other,
        if_pos lineBreak]
      exact ih fun token inside => empty token (List.mem_cons_of_mem _ inside)

end Grammar
end EntitySchema
