import EntitySchema.Proofs.Compact.Confinement

/-! Any row of reads from one reader, failing ones among them. A read takes exactly the next
bytes, or nothing if there are too few; so what has been read is the front of the data at any
time, and the offset is its length. -/
namespace EntitySchema

/-- Multiples of what the lowest bytes can hold do not show in them. -/
theorem bigEndian_mul_add (count high low : Nat) :
    bigEndian count (high * 256 ^ count + low) = bigEndian count low := by
  induction count generalizing high with
  | zero => rfl
  | succ count ih =>
    have above : high * 256 ^ (count + 1) + low = high * 256 * 256 ^ count + low := by
      rw [Nat.pow_succ', Nat.mul_assoc]
    have byte : ((high * 256 * 256 ^ count + low) >>> (8 * count)).toUInt8 =
        (low >>> (8 * count)).toUInt8 := by
      have place : 2 ^ (8 * count) = 256 ^ count := Nat.pow_mul 2 8 count
      rw [Nat.shiftRight_eq_div_pow, Nat.shiftRight_eq_div_pow, place, Nat.add_comm,
        Nat.add_mul_div_right _ _ (Nat.pow_pos (by decide)), ← UInt8.toNat_inj]
      simp
    rw [bigEndian, bigEndian, above, byte, ih]

/-- Any bytes are those of a number. -/
theorem exists_bigEndian (bytes : List UInt8) :
    ∃ n < 256 ^ bytes.length, bytes = bigEndian bytes.length n := by
  induction bytes with
  | nil => exact ⟨0, Nat.one_pos, rfl⟩
  | cons byte bytes ih =>
    obtain ⟨n, small, same⟩ := ih
    have highest : byte.toNat * 256 ^ bytes.length + n < 256 ^ (bytes.length + 1) := by
      have below := Nat.mul_le_mul_right (256 ^ bytes.length) (Nat.le_of_lt_succ byte.toNat_lt)
      rw [Nat.pow_succ']
      omega
    have first : ((byte.toNat * 256 ^ bytes.length + n) >>> (8 * bytes.length)).toUInt8 = byte := by
      have place : 2 ^ (8 * bytes.length) = 256 ^ bytes.length := Nat.pow_mul 2 8 bytes.length
      rw [Nat.shiftRight_eq_div_pow, place, Nat.add_comm,
        Nat.add_mul_div_right _ _ (Nat.pow_pos (by decide)), Nat.div_eq_of_lt small, Nat.zero_add]
      exact UInt8.ofNat_toNat
    refine ⟨_, highest, ?_⟩
    rw [List.length_cons, bigEndian, first, bigEndian_mul_add, ← same]

namespace Compact

/-- What can be asked of a reader. -/
inductive Request where
  | take (count : Nat)
  | u8 | u16 | u32
  /-- A binary64 number, by its bit pattern. -/
  | u64
  deriving DecidableEq, Repr

inductive Answer where
  | taken (bytes : List UInt8)
  | u8 (value : UInt8)
  | u16 (value : UInt16)
  | u32 (value : UInt32)
  | u64 (value : UInt64)
  deriving DecidableEq, Repr

/-- The bytes that are read as an answer. -/
def Answer.written : Answer → List UInt8
  | .taken bytes => bytes
  | .u8 value => bigEndian 1 value.toNat
  | .u16 value => bigEndian 2 value.toNat
  | .u32 value => bigEndian 4 value.toNat
  | .u64 value => bigEndian 8 value.toNat

namespace Request

/-- The number of bytes that are asked for. -/
def width : Request → Nat
  | .take count => count
  | .u8 => 1
  | .u16 => 2
  | .u32 => 4
  | .u64 => 8

def ask : Request → Decoder Answer
  | .take count => .taken <$> Reader.take count
  | .u8 => .u8 <$> Reader.u8
  | .u16 => .u16 <$> Reader.u16
  | .u32 => .u32 <$> Reader.u32
  | .u64 => .u64 <$> Reader.u64

/-- The answer for the bytes that a request takes. -/
inductive Answers : Request → List UInt8 → Answer → Prop
  | take (bytes : List UInt8) : Answers (.take bytes.length) bytes (.taken bytes)
  | u8 (value : UInt8) : Answers .u8 (bigEndian 1 value.toNat) (.u8 value)
  | u16 (value : UInt16) : Answers .u16 (bigEndian 2 value.toNat) (.u16 value)
  | u32 (value : UInt32) : Answers .u32 (bigEndian 4 value.toNat) (.u32 value)
  | u64 (value : UInt64) : Answers .u64 (bigEndian 8 value.toNat) (.u64 value)

variable {request : Request} {front : List UInt8} {answer : Answer}

theorem Answers.written (answers : request.Answers front answer) : answer.written = front := by
  cases answers <;> rfl

theorem Answers.length (answers : request.Answers front answer) :
    front.length = request.width := by
  cases answers with
  | take bytes => rfl
  | u8 value | u16 value | u32 value | u64 value => exact length_bigEndian ..

/-- Bytes of the right number are read as an answer, whatever follows them. -/
theorem exists_reads (whole : front.length = request.width) :
    ∃ answer, request.Answers front answer ∧ Reads request.ask front answer := by
  obtain ⟨n, small, same⟩ := exists_bigEndian front
  rw [whole] at small same
  subst same
  cases request with
  | take count =>
    have read := (reads_take (bigEndian count n)).map (f := Answer.taken)
    have taken := Answers.take (bigEndian count n)
    rw [length_bigEndian] at read taken
    exact ⟨_, taken, read⟩
  | u8 =>
    have value : n.toUInt8.toNat = n := UInt8.toNat_ofNat_of_lt small
    have answers := Answers.u8 n.toUInt8
    have read := (reads_u8 n.toUInt8).map (f := Answer.u8)
    rw [value] at answers
    exact ⟨_, answers, read⟩
  | u16 =>
    have value : n.toUInt16.toNat = n := UInt16.toNat_ofNat_of_lt small
    have answers := Answers.u16 n.toUInt16
    rw [value] at answers
    exact ⟨_, answers, (reads_u16 n).map⟩
  | u32 =>
    have value : n.toUInt32.toNat = n := UInt32.toNat_ofNat_of_lt small
    have answers := Answers.u32 n.toUInt32
    rw [value] at answers
    exact ⟨_, answers, (reads_u32 n).map⟩
  | u64 =>
    have value : n.toUInt64.toNat = n := UInt64.toNat_ofNat_of_lt small
    have answers := Answers.u64 n.toUInt64
    rw [value] at answers
    exact ⟨_, answers, (reads_u64 n).map⟩

theorem ask_of_short {reader : Reader} (short : reader.remaining < request.width) :
    request.ask reader = .error (.truncated reader.offset request.width) reader := by
  have failed : ∀ count, reader.remaining < count →
      Reader.take count reader = .error (.truncated reader.offset count) reader := by
    intro count few
    simp only [Reader.take, splitBytes, splitBytesFrom_of_short few]
  cases request with
  | take count => exact bind_of_failed (failed count short)
  | u8 => exact bind_of_failed (bind_of_failed (bind_of_failed (failed 1 short)))
  | u16 => exact bind_of_failed (bind_of_failed (bind_of_failed (failed 2 short)))
  | u32 => exact bind_of_failed (bind_of_failed (bind_of_failed (failed 4 short)))
  | u64 => exact bind_of_failed (bind_of_failed (bind_of_failed (failed 8 short)))

/-- What comes of a request is settled by the number of bytes that are left. -/
theorem ask_cases (request : Request) (reader : Reader) :
    (∃ front rest answer, reader.rest = front ++ rest ∧ request.Answers front answer ∧
      request.ask reader = .ok answer ⟨rest, reader.offset + request.width⟩) ∨
    (reader.remaining < request.width ∧
      request.ask reader = .error (.truncated reader.offset request.width) reader) := by
  by_cases short : reader.remaining < request.width
  · exact .inr ⟨short, ask_of_short short⟩
  · left
    have whole : (reader.rest.take request.width).length = request.width :=
      List.length_take_of_le (Nat.le_of_not_lt short)
    have split := List.take_append_drop request.width reader.rest
    obtain ⟨answer, answers, reads⟩ := exists_reads whole
    have read := reads (reader.rest.drop request.width) reader.offset
    rw [split, whole] at read
    exact ⟨_, _, answer, split.symm, answers, read⟩

end Request

namespace Reader

/-- A reader of the data that has read the bytes at its front. -/
def Behind (data read : List UInt8) (reader : Reader) : Prop :=
  data = read ++ reader.rest ∧ reader.offset = read.length

/-- Requests from left to right, whether or not they fail, and the answers to those that do not. -/
def askAll (reader : Reader) : List Request → List Answer × Reader
  | [] => ([], reader)
  | request :: rest =>
    match request.ask reader with
    | .ok answer after =>
      let others := after.askAll rest
      (answer :: others.1, others.2)
    | .error _ after => after.askAll rest

variable {data read : List UInt8} {reader : Reader}

theorem Behind.take_offset (behind : reader.Behind data read) :
    data.take reader.offset = read := by
  rw [behind.1, behind.2, List.take_left]

theorem Behind.drop_offset (behind : reader.Behind data read) :
    data.drop reader.offset = reader.rest := by
  rw [behind.1, behind.2, List.drop_left]

/-- However the requests come out, the reader goes on behind the bytes of all answers. -/
theorem Behind.askAll (behind : reader.Behind data read) (requests : List Request) :
    (reader.askAll requests).2.Behind data
      (read ++ (reader.askAll requests).1.flatMap Answer.written) := by
  induction requests generalizing reader read with
  | nil => simpa [Reader.askAll] using behind
  | cons request requests ih =>
    rw [Reader.askAll]
    rcases request.ask_cases reader with ⟨front, rest, answer, split, answers, ran⟩ | ⟨-, ran⟩
    · have further : Behind data (read ++ front) ⟨rest, reader.offset + request.width⟩ := by
        refine ⟨by rw [behind.1, split, List.append_assoc], ?_⟩
        rw [behind.2, List.length_append, answers.length]
      have others := ih further
      simp only [ran, List.flatMap_cons, answers.written]
      rwa [List.append_assoc] at others
    · simp only [ran]
      exact ih behind

/-- What a reader of the data does next: it answers a request exactly if there are enough
bytes, with the next ones, and refuses it otherwise without moving. -/
structure Lawful (data : List UInt8) (reader : Reader) (request : Request) : Prop where
  succeeds : (∃ answer after, request.ask reader = .ok answer after) ↔
    request.width ≤ reader.remaining
  answers : ∀ answer after, request.ask reader = .ok answer after →
    request.Answers ((data.drop reader.offset).take request.width) answer ∧
      after.offset = reader.offset + request.width ∧
      after.remaining + request.width = reader.remaining
  refuses : ∀ problem after, request.ask reader = .error problem after →
    problem = .truncated reader.offset request.width ∧ after = reader

theorem Behind.lawful (behind : reader.Behind data read) (request : Request) :
    reader.Lawful data request := by
  rcases request.ask_cases reader with ⟨front, rest, answer, split, answers, ran⟩ | ⟨short, ran⟩
  · have whole : reader.remaining = request.width + rest.length := by
      rw [remaining, split, List.length_append, answers.length]
    have next : (data.drop reader.offset).take request.width = front := by
      rw [behind.drop_offset, split, ← answers.length, List.take_left]
    refine ⟨iff_of_true ⟨answer, _, ran⟩ (by omega), fun other after again => ?_,
      fun _ _ failed => ?_⟩
    · cases ran.symm.trans again
      rw [next]
      exact ⟨answers, rfl, by rw [whole, remaining, Nat.add_comm]⟩
    · cases ran.symm.trans failed
  · refine ⟨iff_of_false ?_ (Nat.not_le_of_lt short), fun _ _ ok => ?_,
      fun problem after failed => ?_⟩
    · rintro ⟨answer, after, ok⟩
      cases ran.symm.trans ok
    · cases ran.symm.trans ok
    · cases ran.symm.trans failed
      exact ⟨rfl, rfl⟩

/-- Whatever has been asked of a reader, it stands behind the bytes of its answers, which are
the front of the data, and does by the same rule whatever is asked of it next. -/
theorem lawful_askAll (data : List UInt8) (requests : List Request) (request : Request) :
    let row := (ofBytes data).askAll requests
    row.2.offset + row.2.remaining = data.length ∧ row.2.offset ≤ data.length ∧
      row.1.flatMap Answer.written = data.take row.2.offset ∧ row.2.Lawful data request := by
  have start : (ofBytes data).Behind data [] := ⟨rfl, rfl⟩
  have behind := start.askAll requests
  rw [List.nil_append] at behind
  have whole := congrArg List.length behind.1
  rw [List.length_append, ← behind.2] at whole
  exact ⟨whole.symm, Nat.le.intro whole.symm, behind.take_offset.symm, behind.lawful request⟩

/-- A failed read leaves its bytes to the next one. -/
example : (ofBytes [0, 1, 2]).askAll [.u16, .u32, .u8] = ([.u16 1, .u8 2], ⟨[], 3⟩) := by
  decide

end Reader
end Compact
end EntitySchema
