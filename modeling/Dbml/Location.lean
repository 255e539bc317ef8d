/-!
# Locations

A place in a document is known by the text that starts there; people know it by its line and
column, both counted from one. Only the newline character ends a line.

Results:
* `locate_append`: a place is located by the text before it alone;
* `after_line`, `after_column`: what line and column count.
-/
namespace Dbml

/-- A line and a column, counted from one. -/
structure Location where
  line : Nat
  column : Nat
  deriving DecidableEq, Repr

namespace Location

/-- The first character of a document. -/
def start : Location := ⟨1, 1⟩

/-- The location after a character (a turn of `_advance`). -/
def next (l : Location) (c : Char) : Location :=
  if c == '\n' then ⟨l.line + 1, 1⟩ else ⟨l.line, l.column + 1⟩

/-- The location after a text at the front of a document. -/
def after (s : List Char) : Location := s.foldl next start

/-- The location in `text` of the place where `rest` is still to come. -/
def locate (text rest : List Char) : Location := after (text.take (text.length - rest.length))

theorem locate_append (s rest : List Char) : locate (s ++ rest) rest = after s := by
  simp [locate]

theorem after_append (s t : List Char) : after (s ++ t) = t.foldl next (after s) :=
  List.foldl_append

theorem after_concat (s : List Char) (c : Char) : after (s ++ [c]) = (after s).next c := by
  simp [after_append]

theorem foldl_next_line (l : Location) (s : List Char) :
    (s.foldl next l).line = l.line + s.count '\n' := by
  induction s generalizing l with
  | nil => rfl
  | cons c s ih =>
    rw [List.foldl_cons, ih, List.count_cons, next]
    split
    · simp only; omega
    · rfl

/-- The line counts the newlines before the place. -/
theorem after_line (s : List Char) : (after s).line = 1 + s.count '\n' := foldl_next_line start s

theorem foldl_next_column {s : List Char} (l : Location) (h : '\n' ∉ s) :
    (s.foldl next l).column = l.column + s.length := by
  induction s generalizing l with
  | nil => rfl
  | cons c s ih =>
    simp only [List.mem_cons, not_or] at h
    have hc : (c == '\n') = false := by simpa using Ne.symm h.1
    rw [List.foldl_cons, ih _ h.2, next, hc]
    simp; omega

/-- The column counts the characters after the last newline. -/
theorem after_column {s t : List Char} (h : '\n' ∉ t) :
    (after (s ++ '\n' :: t)).column = 1 + t.length := by
  rw [after_append, List.foldl_cons, foldl_next_column _ h]; rfl

end Location

end Dbml
