import EntitySchema.Token
import Mathlib.Algebra.GroupWithZero.Nat

/-! Byte offsets into texts, and lines. A character takes as many bytes as its encoding has, and
an offset tells which characters stand before it. -/
namespace EntitySchema

namespace Text

/-- The number of bytes a text takes. -/
def byteSize (text : List Char) : Nat := (text.map Char.utf8Size).sum

/-- The characters within the first `n` bytes of a text. -/
def takeBytes : Nat → List Char → List Char
  | 0, _ => []
  | _, [] => []
  | n, c :: text => c :: takeBytes (n - c.utf8Size) text

/-- The characters behind the first `n` bytes of a text. -/
def dropBytes : Nat → List Char → List Char
  | 0, text => text
  | _, [] => []
  | n, c :: text => dropBytes (n - c.utf8Size) text

theorem byteSize_cons (c : Char) (text : List Char) :
    byteSize (c :: text) = c.utf8Size + byteSize text := by
  rw [byteSize, byteSize, List.map_cons, List.sum_cons]

theorem byteSize_append (front back : List Char) :
    byteSize (front ++ back) = byteSize front + byteSize back := by
  rw [byteSize, byteSize, byteSize, List.map_append, List.sum_append]

theorem byteSize_pos {text : List Char} (some : text ≠ []) : 0 < byteSize text := by
  obtain ⟨c, rest, rfl⟩ := List.exists_cons_of_ne_nil some
  have positive := c.utf8Size_pos
  rw [byteSize_cons]
  omega

theorem takeBytes_append (front back : List Char) (n : Nat) :
    takeBytes (byteSize front + n) (front ++ back) = front ++ takeBytes n back := by
  induction front with
  | nil => simp [byteSize]
  | cons c front ih =>
    have positive := c.utf8Size_pos
    rw [byteSize_cons, Nat.add_assoc, List.cons_append, takeBytes, Nat.add_sub_cancel_left, ih,
      List.cons_append]
    omega

theorem dropBytes_append (front back : List Char) (n : Nat) :
    dropBytes (byteSize front + n) (front ++ back) = dropBytes n back := by
  induction front with
  | nil => simp [byteSize]
  | cons c front ih =>
    have positive := c.utf8Size_pos
    rw [byteSize_cons, Nat.add_assoc, List.cons_append, dropBytes, Nat.add_sub_cancel_left, ih]
    omega

/-- An offset lies at one place of a text. -/
theorem append_inj_of_byteSize {front back first last : List Char}
    (same : front ++ back = first ++ last) (size : byteSize front = byteSize first) :
    front = first ∧ back = last := by
  have taken : takeBytes (byteSize front) (front ++ back) = front := by
    simpa [takeBytes] using takeBytes_append front back 0
  rw [same, size, ← Nat.add_zero (byteSize first), takeBytes_append, takeBytes,
    List.append_nil] at taken
  subst taken
  exact ⟨rfl, List.append_cancel_left same⟩

end Text

theorem Mark.offset_after (mark : Mark) (text : List Char) :
    (mark.after text).offset = mark.offset + Text.byteSize text := by
  induction text generalizing mark with
  | nil => rfl
  | cons c text ih =>
    have one : (mark.step c).offset = mark.offset + c.utf8Size := by
      rw [step]
      split <;> rfl
    rw [after_cons, ih, one, Text.byteSize_cons, Nat.add_assoc]

theorem Mark.line_after (mark : Mark) (text : List Char) :
    (mark.after text).line = mark.line + text.count '\n' := by
  induction text generalizing mark with
  | nil => rfl
  | cons c text ih =>
    rw [after_cons, ih, step, List.count_cons]
    by_cases lineBreak : c = '\n'
    · simp [lineBreak, Nat.add_right_comm, ← Nat.add_assoc]
    · simp [lineBreak]

end EntitySchema
