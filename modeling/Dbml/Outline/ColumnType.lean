import Dbml.Text.Quoted

/-!
# Column types

A column type is a token in double quotes, or a run of characters up to a blank, a newline, an
opening bracket, a closing brace or an opening parenthesis. A parenthesised parameter may follow
the run, past blanks that are dropped, and is kept as written. It ends where its parentheses
balance, or with the line.

Results:
* `readType_suffix`: what is left is a suffix of what was given.
-/
namespace Dbml.Outline

open Text

/-- The characters of a bare type. -/
def isTypeChar (c : Char) : Bool :=
  !(isInlineSpace c || c == '\n' || c == '[' || c == '}' || c == '(')

/-- The rest of a parameter, given the text after its opening parenthesis and the number of further
parentheses that are open inside it (the last loop in `_parse_type`). -/
def readParameter : Nat → List Char → List Char × List Char
  | _, [] => ([], [])
  | depth, c :: r =>
    if c == '\n' then ([], c :: r)
    else if c == '(' then (readParameter (depth + 1) r).map (c :: ·) id
    else if c == ')' then
      match depth with
      | 0 => ([c], r)
      | outer + 1 => (readParameter outer r).map (c :: ·) id
    else (readParameter depth r).map (c :: ·) id

theorem readParameter_suffix (depth : Nat) (s : List Char) : (readParameter depth s).2 <:+ s := by
  fun_induction readParameter depth s with
  | case1 => exact List.suffix_rfl
  | case2 => exact List.suffix_rfl
  | case4 => exact List.suffix_cons _ _
  | case3 _ c r _ _ ih => exact ih.trans (List.suffix_cons c r)
  | case5 c r _ _ _ outer ih => exact ih.trans (List.suffix_cons c r)
  | case6 _ c r _ _ _ ih => exact ih.trans (List.suffix_cons c r)

/-- A bare type, with its parameter if one follows (a part of `_parse_type`). Blanks after the run
are skipped in any case. -/
def readBareType (s : List Char) : List Char × List Char :=
  let run := s.takeWhile isTypeChar
  let r := s.dropWhile isTypeChar
  if run.isEmpty then ([], r)
  else match skipInline r with
    | '(' :: t => (readParameter 0 t).map (run ++ '(' :: ·) id
    | t => (run, t)

theorem readBareType_suffix (s : List Char) : (readBareType s).2 <:+ s := by
  have hr : s.dropWhile isTypeChar <:+ s := List.dropWhile_suffix _
  have hi := (skipInline_suffix (s.dropWhile isTypeChar)).trans hr
  unfold readBareType
  dsimp only
  split
  · exact hr
  · split
    · rename_i t e
      rw [e] at hi
      exact (readParameter_suffix 0 t).trans ((List.suffix_cons _ _).trans hi)
    · exact hi

/-- The type at the front, empty where none stands, and the text after it (`_parse_type`). -/
def readType (s : List Char) : List Char × List Char :=
  match s with
  | '"' :: _ => readQuoted s
  | _ => readBareType s

theorem readType_suffix (s : List Char) : (readType s).2 <:+ s := by
  unfold readType; split
  · exact readQuoted_suffix _
  · exact readBareType_suffix s

end Dbml.Outline
