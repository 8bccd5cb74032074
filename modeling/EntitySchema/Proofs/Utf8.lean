import EntitySchema.Text.Utf8
import Mathlib.Data.List.Basic
import Mathlib.Tactic.IntervalCases
import Mathlib.Tactic.SplitIfs

/-! UTF-8 loses nothing in either direction: a piece reads as a character exactly
when it is the encoding of that character, so decoding is the inverse of encoding
and accepts nothing else. -/
namespace EntitySchema.Text.Utf8

/-- The bytes that may follow a lead byte with the given bounds on the first of them. -/
def Follow (low high : Nat) : List UInt8 → Prop
  | [] => True
  | byte :: rest =>
    (low ≤ byte.toNat ∧ byte.toNat ≤ high) ∧ ∀ next ∈ rest, 0x80 ≤ next.toNat ∧ next.toNat ≤ 0xbf

/-- The number that leading bits and following bytes make up. -/
def scalar (bits : Nat) (following : List UInt8) : Nat :=
  following.foldl (fun value byte => value * 0x40 + byte.toNat % 0x40) bits

theorem follow_cons {low high : Nat} {byte : UInt8} {rest : List UInt8} :
    Follow low high (byte :: rest) ↔
      (low ≤ byte.toNat ∧ byte.toNat ≤ high) ∧ Follow 0x80 0xbf rest := by
  cases rest with
  | nil => simp [Follow]
  | cons next rest => simp [Follow]

theorem readFollowing_eq_some_iff {bits count low high : Nat} {bytes rest : List UInt8} {c : Char} :
    readFollowing bits count low high bytes = (some c, rest) ↔
      ∃ following, bytes = following ++ rest ∧ following.length = count ∧
        Follow low high following ∧ c = Char.ofNat (scalar bits following) := by
  induction count generalizing bits low high bytes with
  | zero =>
    constructor
    · intro read
      obtain ⟨rfl, rfl⟩ : Char.ofNat bits = c ∧ bytes = rest := by simpa [readFollowing] using read
      exact ⟨[], rfl, rfl, trivial, rfl⟩
    · rintro ⟨following, rfl, none, -, rfl⟩
      obtain rfl := List.length_eq_zero_iff.mp none
      rfl
  | succ count ih =>
    cases bytes with
    | nil =>
      constructor
      · intro read
        simp [readFollowing] at read
      · rintro ⟨following, split, length, -⟩
        obtain ⟨rfl, -⟩ := List.append_eq_nil_iff.mp split.symm
        simp at length
    | cons byte bytes =>
      rw [readFollowing]
      split
      · rename_i bounds
        rw [ih]
        constructor
        · rintro ⟨following, rfl, rfl, follow, rfl⟩
          exact ⟨byte :: following, rfl, rfl, follow_cons.mpr ⟨bounds, follow⟩, rfl⟩
        · rintro ⟨following, split, length, follow, rfl⟩
          cases following with
          | nil => simp at length
          | cons first following =>
            obtain ⟨rfl, rfl⟩ := List.cons.inj split
            exact ⟨following, rfl, by simpa using length, (follow_cons.mp follow).2, rfl⟩
      · rename_i bounds
        constructor
        · intro read
          simp at read
        · rintro ⟨following, split, length, follow, rfl⟩
          cases following with
          | nil => simp at length
          | cons first following =>
            obtain ⟨rfl, rfl⟩ := List.cons.inj split
            exact absurd (follow_cons.mp follow).1 bounds

theorem toUInt8_eq {n : Nat} (byte : UInt8) (same : n = byte.toNat) : n.toUInt8 = byte := by
  rw [same]
  exact UInt8.ofNat_toNat

theorem toNat_ofNat {n : Nat} (valid : n.isValidChar) : (Char.ofNat n).toNat = n := by
  rw [Char.ofNat, dif_pos valid]
  rfl

theorem encodeChar_two {byte first : UInt8} {bits : Nat} (lead : byte.toNat = 0xc0 + bits)
    (low : 2 ≤ bits) (high : bits < 0x20) (tail : 0x80 ≤ first.toNat ∧ first.toNat ≤ 0xbf) :
    encodeChar (Char.ofNat (scalar bits [first])) = [byte, first] := by
  have valid : (bits * 0x40 + first.toNat % 0x40).isValidChar := by
    simp only [Nat.isValidChar]
    omega
  simp only [scalar, List.foldl_cons, List.foldl_nil, encodeChar, toNat_ofNat valid]
  rw [if_neg (by omega), if_pos (by omega), toUInt8_eq byte (by omega),
    toUInt8_eq first (by omega)]

theorem encodeChar_three {byte first second : UInt8} {bits : Nat}
    (lead : byte.toNat = 0xe0 + bits) (high : bits < 0x10)
    (tails : (0x80 ≤ first.toNat ∧ first.toNat ≤ 0xbf) ∧ 0x80 ≤ second.toNat ∧ second.toNat ≤ 0xbf)
    (shortest : bits = 0 → 0xa0 ≤ first.toNat) (surrogate : bits = 0xd → first.toNat ≤ 0x9f) :
    encodeChar (Char.ofNat (scalar bits [first, second])) = [byte, first, second] := by
  have valid : ((bits * 0x40 + first.toNat % 0x40) * 0x40 + second.toNat % 0x40).isValidChar := by
    simp only [Nat.isValidChar]
    omega
  simp only [scalar, List.foldl_cons, List.foldl_nil, encodeChar, toNat_ofNat valid]
  rw [if_neg (by omega), if_neg (by omega), if_pos (by omega),
    toUInt8_eq byte (by omega), toUInt8_eq first (by omega),
    toUInt8_eq second (by omega)]

theorem encodeChar_four {byte first second third : UInt8} {bits : Nat}
    (lead : byte.toNat = 0xf0 + bits) (high : bits ≤ 4)
    (tails : (0x80 ≤ first.toNat ∧ first.toNat ≤ 0xbf) ∧
      (0x80 ≤ second.toNat ∧ second.toNat ≤ 0xbf) ∧ 0x80 ≤ third.toNat ∧ third.toNat ≤ 0xbf)
    (shortest : bits = 0 → 0x90 ≤ first.toNat) (last : bits = 4 → first.toNat ≤ 0x8f) :
    encodeChar (Char.ofNat (scalar bits [first, second, third])) =
      [byte, first, second, third] := by
  have valid : (((bits * 0x40 + first.toNat % 0x40) * 0x40 + second.toNat % 0x40) * 0x40 +
      third.toNat % 0x40).isValidChar := by
    simp only [Nat.isValidChar]
    omega
  simp only [scalar, List.foldl_cons, List.foldl_nil, encodeChar, toNat_ofNat valid]
  rw [if_neg (by omega), if_neg (by omega), if_neg (by omega),
    toUInt8_eq byte (by omega), toUInt8_eq first (by omega),
    toUInt8_eq second (by omega), toUInt8_eq third (by omega)]

theorem follow_two {low high : Nat} {following : List UInt8} (length : following.length = 2)
    (follow : Follow low high following) : ∃ first second : UInt8, following = [first, second] ∧
      (low ≤ first.toNat ∧ first.toNat ≤ high) ∧ 0x80 ≤ second.toNat ∧ second.toNat ≤ 0xbf := by
  obtain ⟨first, second, rfl⟩ := List.length_eq_two.mp length
  exact ⟨first, second, rfl, follow.1, follow.2 second (by simp)⟩

theorem follow_three {low high : Nat} {following : List UInt8} (length : following.length = 3)
    (follow : Follow low high following) :
    ∃ first second third : UInt8, following = [first, second, third] ∧
      (low ≤ first.toNat ∧ first.toNat ≤ high) ∧
      (0x80 ≤ second.toNat ∧ second.toNat ≤ 0xbf) ∧ 0x80 ≤ third.toNat ∧ third.toNat ≤ 0xbf := by
  obtain ⟨first, second, third, rfl⟩ := List.length_eq_three.mp length
  exact ⟨first, second, third, rfl, follow.1, follow.2 second (by simp), follow.2 third (by simp)⟩

/-- The bounds of a lead byte admit exactly the encodings that begin with it: none is
longer than need be, and none stands for a surrogate or exceeds the last character. -/
theorem encodeChar_scalar {byte : UInt8} {lead : Lead} {following : List UInt8}
    (leads : lead? byte.toNat = some lead) (length : following.length = lead.following)
    (follow : Follow lead.low lead.high following) :
    encodeChar (Char.ofNat (scalar lead.bits following)) = byte :: following := by
  unfold lead? at leads
  split_ifs at leads <;> obtain rfl := Option.some.inj leads <;> dsimp only at length follow ⊢
  · obtain rfl := List.length_eq_zero_iff.mp length
    have valid : byte.toNat.isValidChar := by
      simp only [Nat.isValidChar]
      omega
    simp only [scalar, List.foldl_nil, encodeChar, toNat_ofNat valid]
    rw [if_pos (by omega), toUInt8_eq _ rfl]
  · obtain ⟨first, rfl⟩ := List.length_eq_one_iff.mp length
    exact encodeChar_two (by omega) (by omega) (by omega) follow.1
  -- The next three begin with 0xe0, with 0xed and with any other lead of three bytes.
  · obtain ⟨first, second, rfl, bounds, tail⟩ := follow_two length follow
    exact encodeChar_three (by omega) (by omega) ⟨by omega, tail⟩ (by omega) (by omega)
  · obtain ⟨first, second, rfl, bounds, tail⟩ := follow_two length follow
    exact encodeChar_three (by omega) (by omega) ⟨by omega, tail⟩ (by omega) (by omega)
  · obtain ⟨first, second, rfl, bounds, tail⟩ := follow_two length follow
    exact encodeChar_three (by omega) (by omega) ⟨by omega, tail⟩ (by omega) (by omega)
  -- The last three begin with 0xf0, with 0xf1 to 0xf3 and with 0xf4.
  · obtain ⟨first, second, third, rfl, bounds, tails⟩ := follow_three length follow
    exact encodeChar_four (by omega) (by omega) ⟨by omega, tails⟩ (by omega) (by omega)
  · obtain ⟨first, second, third, rfl, bounds, tails⟩ := follow_three length follow
    exact encodeChar_four (by omega) (by omega) ⟨by omega, tails⟩ (by omega) (by omega)
  · obtain ⟨first, second, third, rfl, bounds, tails⟩ := follow_three length follow
    exact encodeChar_four (by omega) (by omega) ⟨by omega, tails⟩ (by omega) (by omega)

theorem lead?_two {bits : Nat} (low : 2 ≤ bits) (high : bits < 0x20) :
    lead? (0xc0 + bits) = some ⟨1, 0x80, 0xbf, bits⟩ := by
  interval_cases bits <;> rfl

theorem lead?_three {bits : Nat} (high : bits < 0x10) : lead? (0xe0 + bits) =
    some ⟨2, if bits = 0 then 0xa0 else 0x80, if bits = 0xd then 0x9f else 0xbf, bits⟩ := by
  interval_cases bits <;> rfl

theorem lead?_four {bits : Nat} (high : bits ≤ 4) : lead? (0xf0 + bits) =
    some ⟨3, if bits = 0 then 0x90 else 0x80, if bits = 4 then 0x8f else 0xbf, bits⟩ := by
  interval_cases bits <;> rfl

theorem toNat_toUInt8 {n : Nat} (small : n < 0x100) : n.toUInt8.toNat = n :=
  UInt8.toNat_ofNat_of_lt' small

theorem toNat_tail (n : Nat) : (0x80 + n % 0x40).toUInt8.toNat = 0x80 + n % 0x40 :=
  toNat_toUInt8 (by omega)

/-- Every character is encoded as a lead byte and bytes within its bounds. -/
theorem exists_lead (c : Char) : ∃ byte following lead, encodeChar c = byte :: following ∧
    lead? byte.toNat = some lead ∧ following.length = lead.following ∧
    Follow lead.low lead.high following ∧ Char.ofNat (scalar lead.bits following) = c := by
  have valid : c.toNat < 0xd800 ∨ 0xdfff < c.toNat ∧ c.toNat < 0x110000 := c.valid
  have same : ∀ {m : Nat}, m = c.toNat → Char.ofNat m = c := fun h => h ▸ Char.ofNat_toNat c
  rw [encodeChar]
  split_ifs
  · refine ⟨_, _, ⟨0, 0x80, 0xbf, c.toNat⟩, rfl, ?_, rfl, trivial, same rfl⟩
    rw [toNat_toUInt8 (by omega), lead?, if_pos (by omega)]
  · refine ⟨_, _, ⟨1, 0x80, 0xbf, c.toNat / 0x40⟩, rfl, ?_, rfl, ?_, same ?_⟩
    · rw [toNat_toUInt8 (by omega), lead?_two (by omega) (by omega)]
    · simp only [follow_cons, toNat_tail]
      exact ⟨by omega, trivial⟩
    · simp only [scalar, List.foldl_cons, List.foldl_nil, toNat_tail]
      omega
  · refine ⟨_, _, ⟨2, if c.toNat / 0x1000 = 0 then 0xa0 else 0x80,
      if c.toNat / 0x1000 = 0xd then 0x9f else 0xbf, c.toNat / 0x1000⟩, rfl, ?_, rfl, ?_, same ?_⟩
    · rw [toNat_toUInt8 (by omega), lead?_three (by omega)]
    · simp only [follow_cons, toNat_tail]
      refine ⟨?_, by omega, trivial⟩
      split_ifs <;> omega
    · simp only [scalar, List.foldl_cons, List.foldl_nil, toNat_tail]
      omega
  · refine ⟨_, _, ⟨3, if c.toNat / 0x40000 = 0 then 0x90 else 0x80,
      if c.toNat / 0x40000 = 4 then 0x8f else 0xbf, c.toNat / 0x40000⟩, rfl, ?_, rfl, ?_, same ?_⟩
    · rw [toNat_toUInt8 (by omega), lead?_four (by omega)]
    · simp only [follow_cons, toNat_tail]
      refine ⟨?_, by omega, by omega, trivial⟩
      split_ifs <;> omega
    · simp only [scalar, List.foldl_cons, List.foldl_nil, toNat_tail]
      omega

theorem readPiece_eq_some_iff {byte : UInt8} {bytes rest : List UInt8} {c : Char} :
    readPiece byte bytes = (some c, rest) ↔ byte :: bytes = encodeChar c ++ rest := by
  constructor
  · intro read
    rw [readPiece] at read
    split at read
    · rename_i lead leads
      obtain ⟨following, rfl, length, follow, rfl⟩ := readFollowing_eq_some_iff.mp read
      rw [encodeChar_scalar leads length follow]
      rfl
    · simp at read
  · intro split
    obtain ⟨first, following, lead, encoded, leads, length, follow, value⟩ := exists_lead c
    obtain ⟨rfl, rfl⟩ := List.cons.inj (encoded ▸ split)
    rw [readPiece, leads]
    exact readFollowing_eq_some_iff.mpr ⟨following, rfl, length, follow, value.symm⟩

theorem piecesFrom_eq_append (done : List (Option Char)) (bytes : List UInt8) :
    piecesFrom done bytes = done.reverse ++ piecesFrom [] bytes := by
  induction size : bytes.length using Nat.strong_induction_on generalizing done bytes with
  | _ n ih =>
    cases bytes with
    | nil => simp [piecesFrom]
    | cons byte bytes =>
      have shorter := length_readPiece_le byte bytes
      rw [List.length_cons] at size
      rw [piecesFrom, piecesFrom, ih _ (by omega) _ _ rfl, ih _ (by omega) [_] _ rfl]
      simp

theorem pieces_cons (byte : UInt8) (bytes : List UInt8) :
    pieces (byte :: bytes) = (readPiece byte bytes).1 :: pieces (readPiece byte bytes).2 := by
  rw [pieces, piecesFrom, piecesFrom_eq_append]
  rfl

theorem decode?_eq_some_iff {bytes : List UInt8} {text : List Char} :
    decode? bytes = some text ↔ pieces bytes = text.map some := by
  rw [decode?]
  induction pieces bytes generalizing text with
  | nil => cases text <;> simp
  | cons piece rest ih =>
    rw [List.mapM_cons]
    cases piece with
    | none => cases text <;> simp
    | some c => cases text <;> simp [Option.bind_eq_some_iff, ih, and_comm]

theorem pieces_encode (text : List Char) : pieces (encode text) = text.map some := by
  induction text with
  | nil => simp [encode, pieces, piecesFrom]
  | cons c text ih =>
    obtain ⟨byte, following, -, encoded, -⟩ := exists_lead c
    have whole : encode (c :: text) = byte :: (following ++ encode text) := by
      simp [encode, encoded]
    have read : readPiece byte (following ++ encode text) = (some c, encode text) := by
      rw [readPiece_eq_some_iff, encoded]
      rfl
    rw [whole, pieces_cons, read, ih]
    rfl

theorem encode_eq_of_pieces {bytes : List UInt8} {text : List Char}
    (read : pieces bytes = text.map some) : encode text = bytes := by
  induction text generalizing bytes with
  | nil =>
    cases bytes with
    | nil => rfl
    | cons byte bytes => simp [pieces_cons] at read
  | cons c text ih =>
    cases bytes with
    | nil => simp [pieces, piecesFrom] at read
    | cons byte bytes =>
      rw [pieces_cons, List.map_cons, List.cons.injEq] at read
      have split :=
        readPiece_eq_some_iff.mp (Prod.ext read.1 rfl : readPiece byte bytes = (some c, _))
      rw [split, encode, List.flatMap_cons]
      exact congrArg (encodeChar c ++ ·) (ih read.2)

theorem decode?_encode (text : List Char) : decode? (encode text) = some text :=
  decode?_eq_some_iff.mpr (pieces_encode text)

end EntitySchema.Text.Utf8

namespace EntitySchema

@[simp] theorem textOfUtf8?_utf8 (text : String) : textOfUtf8? (utf8 text) = some text := by
  simp [textOfUtf8?, utf8, Text.Utf8.decode?_encode]

@[simp] theorem textOfUtf8Lossy_utf8 (text : String) : textOfUtf8Lossy (utf8 text) = text := by
  simp [textOfUtf8Lossy, utf8, Text.Utf8.decodeLossy, Text.Utf8.pieces_encode,
    Function.comp_def]

/-- Bytes that decode are the encoding of what they decode to. -/
theorem utf8_eq_of_textOfUtf8? {bytes : List UInt8} {text : String}
    (read : textOfUtf8? bytes = some text) : utf8 text = bytes := by
  obtain ⟨chars, decoded, rfl⟩ := Option.map_eq_some_iff.mp read
  rw [utf8, String.toList_ofList]
  exact Text.Utf8.encode_eq_of_pieces (Text.Utf8.decode?_eq_some_iff.mp decoded)

end EntitySchema
