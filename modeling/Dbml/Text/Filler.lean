import Dbml.Text.Blank

/-!
# Filler

Between the parts of a document stand blanks, newlines and comments: from two slashes or a hash
sign to the end of the line, or from a slash and an asterisk to the next asterisk and slash.
-/
namespace Dbml.Text

/-- The text before the first place where `mark` stands, and the text after that mark; all of the
text and nothing where it never stands. -/
def breakAt (mark : List Char) : List Char → List Char × List Char
  | [] => ([], [])
  | c :: r =>
    if mark.isPrefixOf (c :: r) then ([], (c :: r).drop mark.length)
    else (breakAt mark r).map (c :: ·) id

theorem breakAt_suffix (mark s : List Char) : (breakAt mark s).2 <:+ s := by
  induction s with
  | nil => exact List.suffix_rfl
  | cons c r ih =>
    simp only [breakAt]; split
    · exact List.drop_suffix _ _
    · exact ih.trans (List.suffix_cons c r)

/-- The text after a block comment, given the text after its opening mark (`_skip_block_comment`). A
comment that is never closed runs to the end. -/
def skipComment (s : List Char) : List Char := (breakAt ['*', '/'] s).2

theorem skipComment_suffix (s : List Char) : skipComment s <:+ s := breakAt_suffix _ s

/-- Skips one comment. -/
def comment? : List Char → Option (List Char)
  | '#' :: r => some (skipLine r)
  | '/' :: '/' :: r => some (skipLine r)
  | '/' :: '*' :: r => some (skipComment r)
  | _ => none

theorem comment?_skips : Skips comment? := by
  intro s r h
  unfold comment? at h; split at h <;> simp only [Option.some.injEq, reduceCtorEq] at h <;> subst h
  · exact .of_suffix_cons _ (skipLine_suffix _)
  · exact .of_suffix_cons _ ((skipLine_suffix _).trans (List.suffix_cons _ _))
  · exact .of_suffix_cons _ ((skipComment_suffix _).trans (List.suffix_cons _ _))

/-- The three kinds of comments, by the characters that open them. -/
theorem comment?_eq (s : List Char) :
    comment? s = if ['/', '/'].isPrefixOf s then some (skipLine s)
      else if ['/', '*'].isPrefixOf s then some (skipComment (s.drop 2))
      else if s.head?.any (· == '#') then some (skipLine s)
      else none := by
  unfold comment?
  split
  · simp [List.isPrefixOf, skipLine]
  · simp [List.isPrefixOf, skipLine]
  · simp [List.isPrefixOf]
  · rename_i h1 h2 h3
    cases s with
    | nil => rfl
    | cons c r =>
      have hc : c ≠ '#' := fun e => h1 r (by rw [e])
      by_cases hs : c = '/'
      · subst hs
        cases r with
        | nil => rfl
        | cons d r =>
          have hd : d ≠ '/' := fun e => h2 r (by rw [e])
          have hd' : d ≠ '*' := fun e => h3 r (by rw [e])
          simp [List.isPrefixOf, Ne.symm hd, Ne.symm hd']
      · simp [List.isPrefixOf, Ne.symm hs, hc]

/-- Skips one blank, newline or comment (a turn of `_skip_whitespace`). -/
def fillerPiece? (s : List Char) : Option (List Char) :=
  match s with
  | [] => none
  | c :: r => if isInlineSpace c || c == '\n' then some r else comment? s

theorem fillerPiece?_skips : Skips fillerPiece? := by
  intro s r h
  unfold fillerPiece? at h; split at h
  · simp at h
  · split at h
    · obtain rfl := Option.some.inj h; exact .cons _ _
    · exact comment?_skips h

/-- Skips blanks, newlines and comments (`_skip_whitespace`). -/
def skipFiller (s : List Char) : List Char := skipMany fillerPiece? fillerPiece?_skips s

theorem skipFiller_suffix (s : List Char) : skipFiller s <:+ s := skipMany_suffix s

/-- Filler ends at the end of the text or at a character that starts no filler. -/
theorem fillerPiece?_skipFiller (s : List Char) : fillerPiece? (skipFiller s) = none :=
  skipMany_stops s

end Dbml.Text
