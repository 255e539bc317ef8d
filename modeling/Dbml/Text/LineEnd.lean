import Dbml.Text.Filler

/-!
# The end of a line

After a column, a note or a relation the rest of its line is dropped: up to and with the newline,
a line comment included, but not past a closing brace, which may stand on the same line. A block
comment does not end the line, even when it holds newlines.
-/
namespace Dbml.Text

/-- Skips one block comment or one character that does not end the line (a turn of
`_discard_rest_of_line`). -/
def linePiece? : List Char → Option (List Char)
  | [] => none
  | '\n' :: _ => none
  | '}' :: _ => none
  | '#' :: _ => none
  | '/' :: '/' :: _ => none
  | '/' :: '*' :: r => some (skipComment r)
  | _ :: r => some r

theorem linePiece?_skips : Skips linePiece? := by
  intro s r h
  unfold linePiece? at h
  split at h <;> simp only [Option.some.injEq, reduceCtorEq] at h <;> subst h
  · exact .of_suffix_cons _ ((skipComment_suffix _).trans (List.suffix_cons _ _))
  · exact .cons _ _

/-- Drops what is left of a line (`_discard_rest_of_line`). -/
def dropLine (s : List Char) : List Char :=
  match skipMany linePiece? linePiece?_skips s with
  | '}' :: r => '}' :: r
  | r => skipLine r

theorem dropLine_suffix (s : List Char) : dropLine s <:+ s := by
  have h := skipMany_suffix (p := linePiece?_skips) s
  unfold dropLine; split
  · rename_i r e; exact e ▸ h
  · exact (skipLine_suffix _).trans h

theorem skipLine_shorter (c : Char) (s : List Char) : Shorter (skipLine (c :: s)) (c :: s) := by
  by_cases h : c = '\n'
  · subst h; exact .cons _ _
  · have e : skipLine (c :: s) = skipLine s := by
      simp [skipLine, h]
    exact e ▸ .of_suffix_cons c (skipLine_suffix s)

/-- Unless a closing brace comes first, at least one character is dropped. -/
theorem dropLine_shorter {c : Char} {s : List Char} (h : c ≠ '}') :
    Shorter (dropLine (c :: s)) (c :: s) := by
  cases e : linePiece? (c :: s) with
  | none =>
    rw [dropLine, skipMany_of_none e]
    split
    · rename_i he; exact absurd (List.cons.inj he).1 h
    · exact skipLine_shorter c s
  | some r =>
    have : dropLine (c :: s) = dropLine r := by rw [dropLine, skipMany_of_some e, dropLine]
    rw [this]
    exact Shorter.trans_suffix (dropLine_suffix r) (linePiece?_skips e)

/-- From text that does not start with a closing brace, a suffix with the rest of its line dropped
is shorter. -/
theorem dropLine_of_suffix_shorter {c : Char} {s r : List Char} (hc : c ≠ '}')
    (h : r <:+ c :: s) : Shorter (dropLine r) (c :: s) := by
  rcases List.suffix_cons_iff.1 h with rfl | h
  · exact dropLine_shorter hc
  · exact .of_suffix_cons c ((dropLine_suffix r).trans h)

end Dbml.Text
