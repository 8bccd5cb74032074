import EntitySchema.TokenStream

/-! Parsers read tokens from a stream and may fail with a fault; what they have
read stays read. `Consuming` says that a parser never leaves more to read than
there was, which is what bounds the loops of the grammar. -/
namespace EntitySchema.Grammar

abbrev Parser := EStateM Fault TokenStream

/-- A parser that leaves at most as many tokens as it was given. -/
def Consuming {α : Type} (parser : Parser α) : Prop :=
  ∀ (stream rest : TokenStream) (value : α),
    parser stream = .ok value rest → rest.length ≤ stream.length

variable {α β : Type}

theorem consuming_pure (value : α) : Consuming (pure value) := by
  intro stream rest _ read
  simp only [pure, EStateM.pure, EStateM.Result.ok.injEq] at read
  simp [read.2]

theorem consuming_throw (fault : Fault) : Consuming (throw fault : Parser α) := by
  intro stream rest value read
  nomatch (read : EStateM.Result.error fault stream = .ok value rest)

theorem consuming_bind {parser : Parser α} {next : α → Parser β} (first : Consuming parser)
    (second : ∀ value, Consuming (next value)) : Consuming (parser >>= next) := by
  intro stream rest value read
  simp only [bind, EStateM.bind] at read
  split at read
  · exact Nat.le_trans (second _ _ _ _ read) (first _ _ _ ‹_›)
  · simp at read

theorem consuming_ite {condition : Prop} [Decidable condition] {yes no : Parser α}
    (first : Consuming yes) (second : Consuming no) :
    Consuming (if condition then yes else no) := by
  split
  · exact first
  · exact second

theorem consuming_next : Consuming TokenStream.next := by
  intro stream rest token read
  cases stream with
  | token head tail =>
    simp only [TokenStream.next, EStateM.Result.ok.injEq] at read
    simp [TokenStream.length, read.2]
  | exhausted span =>
    simp only [TokenStream.next, EStateM.Result.ok.injEq] at read
    simp [read.2]
  | failed fault resume => simp [TokenStream.next] at read

theorem consuming_expect (kind : TokenKind) : Consuming (TokenStream.expect kind) := by
  intro stream rest token read
  fun_induction TokenStream.expect with
  | case1 head tail _ =>
    simp only [EStateM.Result.ok.injEq] at read
    simp [TokenStream.length, read.2]
  | case2 head tail _ _ ih => exact Nat.le_succ_of_le (ih read)
  | case3 => simp at read
  | case4 =>
    simp only [EStateM.Result.ok.injEq] at read
    simp [read.2]
  | case5 => simp at read
  | case6 => simp at read

end EntitySchema.Grammar
