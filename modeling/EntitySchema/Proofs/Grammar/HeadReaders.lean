import EntitySchema.Proofs.Grammar.Accepting
import EntitySchema.Source.Directive

/-! The grammar of the heads of class blocks and of the other directives, and the readers
that accept it. Line breaks may stand between any two tokens of a head. -/
namespace EntitySchema

namespace Grammar

open TokenStream (ahead)

/-- Helpers up to and including the equals sign, as they are entered into a class. The
helper before them may still lack its arguments. -/
inductive Helped : EntityClass → Option HelperKind → List Token → EntityClass → Prop
  | skip {entity result : EntityClass} {pending : Option HelperKind} {token : Token}
      {tokens : List Token} :
      token.kind = .newline → Helped entity pending tokens result →
      Helped entity pending (token :: tokens) result
  | kind {entity result : EntityClass} {pending : Option HelperKind} {token : Token}
      {tokens : List Token} {kind : HelperKind} :
      token.kind = .string → HelperKind.ofKeyword? token.text = some kind →
      Helped (enterPending entity pending) (some kind) tokens result →
      Helped entity pending (token :: tokens) result
  | arguments {entity result : EntityClass} {token : Token} {tokens : List Token}
      {kind : HelperKind} :
      token.kind = .parenArgs →
      Helped (enterHelper entity kind (splitArguments token.text)) none tokens result →
      Helped entity (some kind) (token :: tokens) result
  | close {entity : EntityClass} {pending : Option HelperKind} {token : Token} :
      token.kind = .equals → Helped entity pending [token] (enterPending entity pending)

theorem readHelpers_of_helped {entity result : EntityClass} {pending : Option HelperKind}
    {tokens : List Token} (helped : Helped entity pending tokens result) (rest : TokenStream) :
    readHelpers entity pending (ahead tokens rest) = .ok result rest := by
  induction helped with
  | skip lineBreak _ ih => simpa [readHelpers, lineBreak] using ih
  | kind string known _ ih => simpa [readHelpers, string, known] using ih
  | arguments arguments _ ih => simpa [readHelpers, arguments] using ih
  | close equals => simp [readHelpers, equals]

theorem accepts_readHelpers (entity : EntityClass) (pending : Option HelperKind) :
    Accepts (readHelpers entity pending) (Helped entity pending) := by
  intro stream result rest
  constructor
  · intro read
    fun_induction readHelpers with
    | case1 entity pending token more lineBreak ih =>
      obtain ⟨tokens, rfl, helped⟩ := ih read
      exact ⟨token :: tokens, rfl, .skip lineBreak helped⟩
    | case2 entity pending token more string kind known ih =>
      obtain ⟨tokens, rfl, helped⟩ := ih read
      exact ⟨token :: tokens, rfl, .kind string known helped⟩
    | case4 entity token more arguments kind ih =>
      obtain ⟨tokens, rfl, helped⟩ := ih read
      exact ⟨token :: tokens, rfl, .arguments arguments helped⟩
    | case6 entity pending token more equals =>
      cases read
      exact ⟨[token], rfl, .close equals⟩
    | _ => cases read
  · rintro ⟨tokens, rfl, helped⟩
    exact readHelpers_of_helped helped rest

/-- A description up to and including the opening bracket, from what has been read of it:
nothing, the colon, or pieces in reverse, of which another one has to follow a plus sign. -/
inductive Explained : Option (List String) → Bool → List Token → String → Prop
  | skip {pieces : Option (List String)} {joining : Bool} {token : Token} {tokens : List Token}
      {text : String} :
      token.kind = .newline → Explained pieces joining tokens text →
      Explained pieces joining (token :: tokens) text
  | colon {token : Token} {tokens : List Token} {text : String} :
      token.kind = .colon → Explained (some []) false tokens text →
      Explained none false (token :: tokens) text
  | first {token : Token} {tokens : List Token} {text : String} :
      token.kind = .string → Explained (some [token.text]) false tokens text →
      Explained (some []) false (token :: tokens) text
  | plus {piece : String} {pieces : List String} {token : Token} {tokens : List Token}
      {text : String} :
      token.kind = .plus → Explained (some (piece :: pieces)) true tokens text →
      Explained (some (piece :: pieces)) false (token :: tokens) text
  | piece {pieces : Option (List String)} {token : Token} {tokens : List Token} {text : String} :
      token.kind = .string → Explained (some (token.text :: pieces.getD [])) false tokens text →
      Explained pieces true (token :: tokens) text
  | close {pieces : Option (List String)} {token : Token} :
      token.kind = .bracketOpen →
      Explained pieces false [token] (String.join (pieces.getD []).reverse)

theorem readDescription_of_explained {pieces : Option (List String)} {joining : Bool}
    {tokens : List Token} {text : String} (explained : Explained pieces joining tokens text)
    (rest : TokenStream) :
    readDescription pieces joining (ahead tokens rest) = .ok text rest := by
  induction explained with
  | @skip pieces joining token tokens text lineBreak _ ih =>
    cases joining <;> simpa [readDescription, lineBreak] using ih
  | colon colon _ ih => simpa [readDescription, colon] using ih
  | first string _ ih => simpa [readDescription, string] using ih
  | plus plus _ ih => simpa [readDescription, plus] using ih
  | piece string _ ih => simpa [readDescription, string] using ih
  | close bracket => simp [readDescription, bracket]

theorem accepts_readDescription (pieces : Option (List String)) (joining : Bool) :
    Accepts (readDescription pieces joining) (Explained pieces joining) := by
  intro stream text rest
  constructor
  · intro read
    fun_induction readDescription with
    | case1 pieces token more string ih =>
      obtain ⟨tokens, rfl, explained⟩ := ih read
      exact ⟨token :: tokens, rfl, .piece string explained⟩
    | case2 pieces token more lineBreak ih =>
      obtain ⟨tokens, rfl, explained⟩ := ih read
      exact ⟨token :: tokens, rfl, .skip lineBreak explained⟩
    | case4 pieces joining token more going lineBreak ih =>
      obtain rfl := eq_false_of_ne_true going
      obtain ⟨tokens, rfl, explained⟩ := ih read
      exact ⟨token :: tokens, rfl, .skip lineBreak explained⟩
    | case5 joining token more going colon ih =>
      obtain rfl := eq_false_of_ne_true going
      obtain ⟨tokens, rfl, explained⟩ := ih read
      exact ⟨token :: tokens, rfl, .colon colon explained⟩
    | case7 joining token more going string ih =>
      obtain rfl := eq_false_of_ne_true going
      obtain ⟨tokens, rfl, explained⟩ := ih read
      exact ⟨token :: tokens, rfl, .first string explained⟩
    | case8 joining token more going piece pieces plus ih =>
      obtain rfl := eq_false_of_ne_true going
      obtain ⟨tokens, rfl, explained⟩ := ih read
      exact ⟨token :: tokens, rfl, .plus plus explained⟩
    | case10 pieces joining token more going bracket =>
      obtain rfl := eq_false_of_ne_true going
      cases read
      exact ⟨[token], rfl, .close bracket⟩
    | _ => cases read
  · rintro ⟨tokens, rfl, explained⟩
    exact readDescription_of_explained explained rest

/-- The head of a block of the given category. -/
inductive Headed (category : Category) : List Token → EntityClass → Prop
  | head {helpers names explained : List Token} {entity : EntityClass} {name : Token}
      {text : String} :
      Helped (.plain category "") none helpers entity → Expected .string names name →
      Explained none false explained text →
      Headed category (helpers ++ (names ++ explained))
        { entity with name := trimmed name.text, description := text }

theorem accepts_readHead (category : Category) :
    Accepts (readHead category) (Headed category) := by
  intro stream head rest
  have named : Accepts (TokenStream.expect .string) (Expected .string) :=
    accepts_expect (by decide) (by decide)
  rw [readHead, (accepts_readHelpers _ _).bind_eq_ok_iff]
  simp only [named.bind_eq_ok_iff,
    (accepts_readDescription _ _).bind_eq_ok_iff, pure_eq_ok_iff]
  constructor
  · rintro ⟨helpers, entity, _, rfl, helped, names, name, _, rfl, named, explained, text, _, rfl,
      explains, rfl, rfl⟩
    exact ⟨_, by simp, .head helped named explains⟩
  · rintro ⟨_, rfl, helped, named, explains⟩
    exact ⟨_, _, _, by simp, helped, _, _, _, rfl, named, _, _, _, rfl, explains, rfl, rfl⟩

end Grammar

namespace Source

open Grammar

/-- What follows the keyword of a directive. -/
inductive Directed (keyword : String) : List Token → Directive → Prop
  | includeFile {tokens : List Token} {target : Token} :
      fold keyword = "@include" → Expected .string tokens target →
      Directed keyword tokens (.includeFile target)
  | mapSize {tokens : List Token} {bounds : Token} {low high : Int64} :
      fold keyword = "@mapsize" → Expected .parenArgs tokens bounds →
      mapSize? bounds.text = some (low, high) → Directed keyword tokens (.mapSize low high)
  | classHead {tokens : List Token} {name : List Char} {category : Category} {head : EntityClass} :
      fold keyword ≠ "@include" → fold keyword ≠ "@mapsize" → (fold keyword).toList = '@' :: name →
      Category.ofKeyword? (String.ofList name) = some category → Headed category tokens head →
      Directed keyword tokens (.classHead head)

theorem accepts_readDirective (keyword : Token) :
    Accepts (readDirective keyword) (Directed keyword.text) := by
  unfold readDirective
  split
  · rename_i folded
    intro stream directive rest
    rw [(accepts_expect (by decide) (by decide)).bind_eq_ok_iff]
    simp only [pure_eq_ok_iff]
    constructor
    · rintro ⟨tokens, target, _, rfl, expected, rfl, rfl⟩
      exact ⟨tokens, rfl, .includeFile folded expected⟩
    · rintro ⟨tokens, rfl, directed⟩
      cases directed with
      | includeFile _ expected => exact ⟨tokens, _, rest, rfl, expected, rfl, rfl⟩
      | mapSize other => exact absurd (folded.symm.trans other) (by decide)
      | classHead other => exact (other folded).elim
  · rename_i folded
    intro stream directive rest
    rw [(accepts_expect (by decide) (by decide)).bind_eq_ok_iff]
    constructor
    · rintro ⟨tokens, bounds, _, rfl, expected, ran⟩
      cases known : mapSize? bounds.text with
      | none =>
        simp only [known] at ran
        cases ran
      | some sizes =>
        obtain ⟨low, high⟩ := sizes
        simp only [known, pure_eq_ok_iff] at ran
        obtain ⟨rfl, rfl⟩ := ran
        exact ⟨tokens, rfl, .mapSize folded expected known⟩
    · rintro ⟨tokens, rfl, directed⟩
      cases directed with
      | includeFile other => exact absurd (folded.symm.trans other) (by decide)
      | @mapSize bounds low high _ expected known =>
        refine ⟨tokens, bounds, rest, rfl, expected, ?_⟩
        simp only [known]
        rfl
      | classHead _ other => exact (other folded).elim
  · rename_i notInclude notMapSize
    split
    · rename_i name split
      intro stream directive rest
      cases known : Category.ofKeyword? (String.ofList name) with
      | none =>
        constructor
        · intro ran
          cases ran
        · rintro ⟨tokens, rfl, directed⟩
          cases directed with
          | includeFile other => exact (notInclude other).elim
          | mapSize other => exact (notMapSize other).elim
          | classHead _ _ again found =>
            cases split.symm.trans again
            cases known.symm.trans found
      | some category =>
        simp only [(accepts_readHead category).bind_eq_ok_iff, pure_eq_ok_iff]
        constructor
        · rintro ⟨tokens, head, _, rfl, headed, rfl, rfl⟩
          exact ⟨tokens, rfl, .classHead notInclude notMapSize split known headed⟩
        · rintro ⟨tokens, rfl, directed⟩
          cases directed with
          | includeFile other => exact (notInclude other).elim
          | mapSize other => exact (notMapSize other).elim
          | classHead _ _ again found headed =>
            cases split.symm.trans again
            cases known.symm.trans found
            exact ⟨tokens, _, rest, rfl, headed, rfl, rfl⟩
    · rename_i other
      intro stream directive rest
      constructor
      · intro ran
        cases ran
      · rintro ⟨tokens, rfl, directed⟩
        cases directed with
        | includeFile other => exact (notInclude other).elim
        | mapSize other => exact (notMapSize other).elim
        | classHead _ _ again => exact (other _ again).elim

end Source
end EntitySchema
