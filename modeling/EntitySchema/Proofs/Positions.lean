import EntitySchema.Proofs.Lexemes
import EntitySchema.Proofs.Offsets
import Mathlib.Data.List.DropRight

/-! Lines and columns. Whatever a lexer has passed, tokens or text that is none, its mark is
the one behind that text, so what it reads next is placed by the text in front of it alone. -/
namespace EntitySchema

theorem Mark.column_after (text : List Char) :
    (Mark.start.after text).column = 1 + (text.rtakeWhile (· != '\n')).length := by
  induction text using List.reverseRecOn with
  | nil => rfl
  | append_singleton text c ih =>
    rw [Mark.after_append, Mark.after_cons, Mark.after_nil, Mark.step]
    split
    · rename_i lineBreak
      rw [List.rtakeWhile_concat_neg _ _ _ (by simp [lineBreak])]
      rfl
    · rename_i inLine
      rw [List.rtakeWhile_concat_pos _ _ _ (by simp [inLine]), List.length_append, ih]
      rfl

/-- No character counts twice: a line feed begins a line, any other one takes a column. -/
theorem Mark.line_add_column_after_le (text : List Char) :
    (Mark.start.after text).line + (Mark.start.after text).column ≤ text.length + 2 := by
  induction text using List.reverseRecOn with
  | nil => exact Nat.le_refl _
  | append_singleton text c ih =>
    rw [Mark.after_append, Mark.after_cons, Mark.after_nil, Mark.step, List.length_append,
      List.length_singleton]
    split
    · have first : 1 ≤ (Mark.start.after text).column := by
        rw [Mark.column_after]
        omega
      dsimp only
      omega
    · dsimp only
      omega

namespace Cursor

/-- The second cursor stands further on in the same text, or at the same place. -/
def LeadsTo (cursor after : Cursor) : Prop :=
  ∃ passed, cursor.rest = passed ++ after.rest ∧ after.mark = cursor.mark.after passed

namespace LeadsTo

variable {cursor middle after : Cursor}

theorem refl (cursor : Cursor) : cursor.LeadsTo cursor := ⟨[], rfl, rfl⟩

theorem trans (first : cursor.LeadsTo middle) (second : middle.LeadsTo after) :
    cursor.LeadsTo after := by
  obtain ⟨front, split, mark⟩ := first
  obtain ⟨back, further, last⟩ := second
  refine ⟨front ++ back, ?_, ?_⟩
  · rw [split, further, List.append_assoc]
  · rw [last, mark, Mark.after_append]

theorem step {c : Char} {rest : List Char} {mark : Mark}
    (others : LeadsTo ⟨rest, mark.step c⟩ after) : LeadsTo ⟨c :: rest, mark⟩ after :=
  trans ⟨[c], rfl, rfl⟩ others

end LeadsTo

theorem leadsTo_skipTrivia (cursor : Cursor) : cursor.LeadsTo cursor.skipTrivia := by
  obtain ⟨source, mark⟩ := cursor
  obtain ⟨text, rest, comment, rfl, -, -, skipped⟩ := trivia_of_skipTrivia false source mark
  rw [skipTrivia, skipped]
  exact ⟨text, rfl, rfl⟩

theorem leadsTo_readQuoted (text source : List Char) (mark : Mark) :
    LeadsTo ⟨source, mark⟩ (readQuoted text source mark).2 := by
  fun_induction readQuoted with
  | case1 => exact .refl _
  | case2 => exact .step (.refl _)
  | case3 text c rest mark plain escape ih => exact .step (.step ih)
  | case4 text c rest mark escape ih => exact .step ih
  | case5 text c rest mark quote backslash ih => exact .step ih

theorem leadsTo_readArguments (source : List Char) (mark : Mark) :
    LeadsTo ⟨source, mark⟩ (readArguments source mark).2 := by
  have whole := List.takeWhile_append_dropWhile (p := fun c => c != '(' && c != ')') (l := source)
  rw [readArguments]
  split
  · rename_i rest left
    rw [left] at whole
    exact .trans ⟨_, whole.symm, rfl⟩ (.step (.refl _))
  · rename_i left
    rw [left] at whole
    exact ⟨_, whole.symm, rfl⟩
  · exact ⟨_, whole.symm, rfl⟩

/-- Failing to read a token passes text as reading one does. -/
theorem leadsTo_readToken (cursor : Cursor) : cursor.LeadsTo cursor.readToken.2 := by
  obtain ⟨_ | ⟨c, rest⟩, mark⟩ := cursor
  · exact .refl _
  · have quoted := leadsTo_readQuoted [] rest (mark.step c)
    have arguments := leadsTo_readArguments rest (mark.step c)
    rw [readToken]
    dsimp only
    split
    · exact .step (.refl _)
    · split
      · split <;> simp_all [LeadsTo.step]
      · split
        · split <;> simp_all [LeadsTo.step]
        · split
          · exact .refl _
          · exact ⟨c :: rest.takeWhile isBareWord, by simp, rfl⟩

theorem span_of_readToken {cursor after : Cursor} {token : Token}
    (read : cursor.readToken = (.ok token, after)) : token.span = cursor.mark.to after.mark := by
  obtain ⟨_ | ⟨c, rest⟩, mark⟩ := cursor
  · cases read
    rfl
  · rw [readToken] at read
    dsimp only at read
    repeat' split at read
    all_goals cases read
    all_goals rfl

end Cursor

namespace Lexer

/-- The lexers that asking for tokens comes to, one call after the other, whether a call
reads a token or fails. -/
inductive Reached (source : String) : Lexer → Prop
  | start : Reached source (.ofText source)
  | next {lexer : Lexer} : Reached source lexer → Reached source lexer.next.2

theorem leadsTo_next (lexer : Lexer) : lexer.cursor.LeadsTo lexer.next.2.cursor := by
  refine lexer.cursor.leadsTo_skipTrivia.trans ?_
  have read := lexer.cursor.skipTrivia.leadsTo_readToken
  rw [Lexer.next]
  split <;> simp_all

theorem Reached.leadsTo {source : String} {lexer : Lexer} (reached : Reached source lexer) :
    Cursor.LeadsTo ⟨source.toList, .start⟩ lexer.cursor := by
  induction reached with
  | start => exact .refl _
  | next _ ih => exact ih.trans (leadsTo_next _)

/-- Every token that is read, the end of the text included, is placed exactly: its line counts
the line feeds in front of it, and its column the characters behind the last of them, whatever
has been read or has failed before. -/
theorem position_of_next {source : String} {lexer after : Lexer} {token : Token}
    (reached : Reached source lexer) (read : lexer.next = (.ok token, after)) :
    ∃ front back, source.toList = front ++ back ∧ token.span.start = Text.byteSize front ∧
      token.span.line = 1 + front.count '\n' ∧
      token.span.column = 1 + (front.rtakeWhile (· != '\n')).length ∧
      token.span.line + token.span.column ≤ source.length + 2 := by
  obtain ⟨front, split, mark⟩ := reached.leadsTo.trans lexer.cursor.leadsTo_skipTrivia
  change source.toList = _ at split
  change _ = Mark.start.after front at mark
  rw [Lexer.next] at read
  split at read
  · rename_i other stop found
    cases read
    have few := Mark.line_add_column_after_le front
    have span := Cursor.span_of_readToken found
    rw [mark] at span
    have length : front.length ≤ source.length := by
      rw [← String.length_toList, split, List.length_append]
      omega
    rw [span]
    refine ⟨front, lexer.cursor.skipTrivia.rest, split, ?_, Mark.line_after .start front,
      Mark.column_after front, ?_⟩
    · exact (Mark.offset_after .start front).trans (Nat.zero_add _)
    · exact Nat.le_trans few (Nat.add_le_add_right length 2)
  · cases read

namespace Nested

/-- A string over two lines, a parenthesis that is opened twice, and a word at the end. -/
def source : String := "\"è\n\"(x\n(é)y"

/-- The lexer behind the fault at the second parenthesis and the token that begins there. -/
def lexer : Lexer := ⟨⟨['y'], ⟨12, 3, 4⟩⟩, ⟨8, 12, 3, 1⟩⟩

theorem reached : Reached source lexer := .next (.next (.next .start))

end Nested

theorem position_of_next_nested :
    Reached Nested.source Nested.lexer ∧
      Nested.lexer.next = (.ok ⟨.string, "y", ⟨12, 13, 3, 4⟩⟩, Nested.lexer.next.2) ∧
      ∃ front back, Nested.source.toList = front ++ back ∧ 12 = Text.byteSize front ∧
        3 = 1 + front.count '\n' ∧ 4 = 1 + (front.rtakeWhile (· != '\n')).length ∧
        3 + 4 ≤ Nested.source.length + 2 :=
  have read : Nested.lexer.next = (.ok ⟨.string, "y", ⟨12, 13, 3, 4⟩⟩, Nested.lexer.next.2) := rfl
  ⟨Nested.reached, read, position_of_next Nested.reached read⟩

end Lexer
end EntitySchema
