import Dbml.Text.Filler

/-!
# Quoted text

A token may stand in single quotes, double quotes or backticks. Between single or double quotes a
backslash takes the next character of the line as it is; between backticks it is a character like
any other. Text between two runs of three single quotes is taken whole, over any number of lines.

A quoted token that is not closed on its line stops before the newline. Only a single quote may
close on a later line, and only if what follows the closing quote ends a value (`closesLater`).
-/
namespace Dbml.Text

/-- Single quote, double quote and backtick open a quoted token (`QUOTES`). -/
def isQuote (c : Char) : Bool := c == '"' || c == '\'' || c == '\x60'

/-- A value is over at the end of the text, at a comma, at a closing bracket and at a newline (the
last test in `_value_closes_later`). -/
def valueEnds : List Char → Bool
  | [] => true
  | c :: _ => c == ',' || c == ']' || c == '\n'

/-- Whether the next single quote that no backslash escapes is followed, past blanks, by the end of
a value (`_value_closes_later`). -/
def closesLater : List Char → Bool
  | [] => false
  | ['\\'] => false
  | '\\' :: _ :: r => closesLater r
  | '\'' :: r => valueEnds (skipInline r)
  | _ :: r => closesLater r

theorem closesLater_backslash (s : List Char) : closesLater ('\\' :: s) = closesLater s.tail := by
  cases s <;> rfl

theorem closesLater_cons {c : Char} (hb : c ≠ '\\') (hq : c ≠ '\'') (s : List Char) :
    closesLater (c :: s) = closesLater s := by
  rw [closesLater]
  · exact fun h _ => hb h
  · exact fun _ _ h _ => hb h
  · exact fun h => hq h

/-- One character of a token in quotes `q`, its escape resolved; none where the token stops (a turn
of the loop in `_read_quoted`). -/
def quotedChar? (q : Char) : List Char → Option (Char × List Char)
  | [] => none
  | c :: r =>
    if c == q || (c == '\n' && !(q == '\'' && closesLater r)) then none
    else if c == '\\' && q != '\x60' then
      match r with
      | d :: r' => if d == '\n' then some (c, r) else some (d, r')
      | [] => some (c, r)
    else some (c, r)

theorem quotedChar?_progresses (q : Char) : Progresses (quotedChar? q) := by
  intro s a r h
  unfold quotedChar? at h
  split at h
  · simp at h
  · split at h
    · simp at h
    · split at h
      · split at h
        · split at h
          · obtain ⟨-, rfl⟩ := Prod.mk.inj (Option.some.inj h); exact .cons _ _
          · obtain ⟨-, rfl⟩ := Prod.mk.inj (Option.some.inj h)
            exact .of_suffix_cons _ (List.suffix_cons _ _)
        · obtain ⟨-, rfl⟩ := Prod.mk.inj (Option.some.inj h); exact .cons _ _
      · obtain ⟨-, rfl⟩ := Prod.mk.inj (Option.some.inj h); exact .cons _ _

/-- The characters up to where a token in quotes `q` stops, given the text after its opening quote
(the loop in `_read_quoted`). -/
def quotedChars (q : Char) (s : List Char) : List Char × List Char :=
  many (quotedChar? q) (quotedChar?_progresses q) s

/-- The text after `c`, where the text starts with it; else the text itself. -/
def dropChar (c : Char) : List Char → List Char
  | [] => []
  | d :: r => if d == c then r else d :: r

theorem dropChar_suffix (c : Char) (s : List Char) : dropChar c s <:+ s := by
  unfold dropChar; split
  · exact List.suffix_rfl
  · split
    · exact List.suffix_cons _ _
    · exact List.suffix_rfl

/-- The text of the quoted token at the front and the text after it (`_read_quoted`). Whatever the
first character is, it is taken for the quote. -/
def readQuoted : List Char → List Char × List Char
  | [] => ([], [])
  | '\'' :: '\'' :: '\'' :: r => breakAt ['\'', '\'', '\''] r
  | q :: r => (quotedChars q r).map id (dropChar q)

theorem readQuoted_shorter (c : Char) (s : List Char) : Shorter (readQuoted (c :: s)).2 (c :: s) := by
  unfold readQuoted; split
  · contradiction
  · rename_i r h
    obtain ⟨rfl, rfl⟩ := List.cons.inj h
    exact .of_suffix_cons _ ((breakAt_suffix _ r).trans
      ((List.suffix_cons _ _).trans (List.suffix_cons _ _)))
  · rename_i q r _ h
    obtain ⟨rfl, rfl⟩ := List.cons.inj h
    exact .of_suffix_cons _ ((dropChar_suffix _ _).trans (many_suffix _))

theorem readQuoted_suffix (s : List Char) : (readQuoted s).2 <:+ s := by
  cases s with
  | nil => exact List.suffix_rfl
  | cons c s => exact (readQuoted_shorter c s).1

end Dbml.Text
