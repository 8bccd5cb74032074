/-! UTF-8. Decoding cuts the bytes into characters and malformed pieces, each
malformed piece being a longest prefix of some well-formed sequence (or one byte
that starts none). Strict and lossy decoding differ only in what they make of
those pieces. -/
namespace EntitySchema.Text.Utf8

def encodeChar (c : Char) : List UInt8 :=
  let n := c.toNat
  if n < 0x80 then [n.toUInt8]
  else if n < 0x800 then [(0xc0 + n / 0x40).toUInt8, (0x80 + n % 0x40).toUInt8]
  else if n < 0x10000 then
    [(0xe0 + n / 0x1000).toUInt8, (0x80 + n / 0x40 % 0x40).toUInt8, (0x80 + n % 0x40).toUInt8]
  else
    [(0xf0 + n / 0x40000).toUInt8, (0x80 + n / 0x1000 % 0x40).toUInt8,
      (0x80 + n / 0x40 % 0x40).toUInt8, (0x80 + n % 0x40).toUInt8]

def encode (text : List Char) : List UInt8 := text.flatMap encodeChar

/-- What a lead byte promises: how many bytes follow it, the bounds of the first
of them, and the leading bits of the character. -/
structure Lead where
  following : Nat
  low : Nat
  high : Nat
  bits : Nat

def lead? (byte : Nat) : Option Lead :=
  if byte < 0x80 then some ⟨0, 0x80, 0xbf, byte⟩
  else if byte < 0xc2 then none
  else if byte < 0xe0 then some ⟨1, 0x80, 0xbf, byte - 0xc0⟩
  else if byte = 0xe0 then some ⟨2, 0xa0, 0xbf, 0⟩
  else if byte = 0xed then some ⟨2, 0x80, 0x9f, 0xd⟩
  else if byte < 0xf0 then some ⟨2, 0x80, 0xbf, byte - 0xe0⟩
  else if byte = 0xf0 then some ⟨3, 0x90, 0xbf, 0⟩
  else if byte < 0xf4 then some ⟨3, 0x80, 0xbf, byte - 0xf0⟩
  else if byte = 0xf4 then some ⟨3, 0x80, 0x8f, 4⟩
  else none

/-- Reads the bytes that follow a lead byte. A byte out of bounds is left unread
and makes the piece malformed. -/
def readFollowing (bits : Nat) : Nat → Nat → Nat → List UInt8 → Option Char × List UInt8
  | 0, _, _, bytes => (some (Char.ofNat bits), bytes)
  | _ + 1, _, _, [] => (none, [])
  | following + 1, low, high, byte :: bytes =>
    if low ≤ byte.toNat ∧ byte.toNat ≤ high then
      readFollowing (bits * 0x40 + byte.toNat % 0x40) following 0x80 0xbf bytes
    else (none, byte :: bytes)

theorem length_readFollowing_le (bits following low high : Nat) (bytes : List UInt8) :
    (readFollowing bits following low high bytes).2.length ≤ bytes.length := by
  fun_induction readFollowing with
  | case1 => simp
  | case2 => simp
  | case3 => grind
  | case4 => simp

/-- Reads one piece: a character, or `none` for a malformed one. -/
def readPiece (byte : UInt8) (bytes : List UInt8) : Option Char × List UInt8 :=
  match lead? byte.toNat with
  | some lead => readFollowing lead.bits lead.following lead.low lead.high bytes
  | none => (none, bytes)

theorem length_readPiece_le (byte : UInt8) (bytes : List UInt8) :
    (readPiece byte bytes).2.length ≤ bytes.length := by
  rw [readPiece]
  split
  · exact length_readFollowing_le ..
  · exact Nat.le_refl _

/-- All pieces of a byte sequence, those already read first and reversed. -/
def piecesFrom (done : List (Option Char)) : List UInt8 → List (Option Char)
  | [] => done.reverse
  | byte :: bytes =>
    have := length_readPiece_le byte bytes
    piecesFrom ((readPiece byte bytes).1 :: done) (readPiece byte bytes).2
termination_by bytes => bytes.length
decreasing_by simp; omega

def pieces (bytes : List UInt8) : List (Option Char) := piecesFrom [] bytes

/-- The text of well-formed bytes. -/
def decode? (bytes : List UInt8) : Option (List Char) := (pieces bytes).mapM id

/-- The text of any bytes, with U+FFFD in place of each malformed piece. -/
def decodeLossy (bytes : List UInt8) : List Char := (pieces bytes).map (·.getD '\uFFFD')

end EntitySchema.Text.Utf8

namespace EntitySchema

def utf8 (text : String) : List UInt8 := Text.Utf8.encode text.toList

def textOfUtf8? (bytes : List UInt8) : Option String :=
  (Text.Utf8.decode? bytes).map String.ofList

def textOfUtf8Lossy (bytes : List UInt8) : String := String.ofList (Text.Utf8.decodeLossy bytes)

end EntitySchema
