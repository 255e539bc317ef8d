import Dbml.Outline.ColumnType
import Dbml.Parser.Skip

/-!
# Tokens

The routines that read a word, a quoted token, an identifier, the value of a setting and the type of
a column.

Results:
* `reads_readQuoted`, `reads_parseIdentifier`, `reads_parseValue`, `reads_parseType`: each reads the
  token at the front of the text that is left.
-/
namespace Dbml.Scan

open Text Outline

/-! ## Words -/

/-- Reads a bare word, empty where none stands (`_parse_bare_word`). -/
def parseBareWord : Scan (List Char) := do
  let word ← lookaheadWord
  advance word.length
  return word

theorem drop_takeWhile (p : Char → Bool) (t : List Char) :
    t.drop (t.takeWhile p).length = t.dropWhile p :=
  calc t.drop (t.takeWhile p).length
      = (t.takeWhile p ++ t.dropWhile p).drop (t.takeWhile p).length := by
        rw [List.takeWhile_append_dropWhile]
    _ = t.dropWhile p := List.drop_left

theorem readWord_eq (t : List Char) :
    readWord t = ((readWord t).1, t.drop (readWord t).1.length) := by
  unfold readWord
  split
  · rfl
  · split
    · rename_i c r _
      rw [List.length_cons, List.drop_succ_cons, drop_takeWhile]
    · rfl

@[simp] theorem reads_parseBareWord (s : Scanner) : parseBareWord.reads s = readWord s.rest := by
  rw [readWord_eq]
  simp [parseBareWord]

/-! ## Quoted tokens -/

/-- Passes a character, if it comes next. -/
def skipChar (c : Char) : Scan Unit := do
  if ← nextIs (· == c) then advance 1

@[simp] theorem reads_skipChar (c : Char) (s : Scanner) :
    (skipChar c).reads s = ((), dropChar c s.rest) := by
  cases hs : s.rest with
  | nil => simp [skipChar, dropChar, hs]
  | cons d t => by_cases hd : d = c <;> simp [skipChar, dropChar, hs, hd]

/-- One turn of the loop in `_read_quoted`, with the characters read so far. -/
def quotedTurn (quote : Char) (chars : List Char) : Scan (ForInStep (List Char)) := do
  match ← peek with
  | none => return .done chars
  | some ch =>
    if ch == quote then
      return .done chars
    else if ch == '\n' && !(quote == '\'' && (← valueClosesLater)) then
      return .done chars
    else if ch == '\\' && quote != '\x60' && (← peekAt 1).any (· != '\n') then
      advance 1
      let escaped ← peek
      advance 1
      return .yield (chars ++ escaped.toList)
    else
      advance 1
      return .yield (chars ++ [ch])

theorem reads_quotedTurn (q : Char) (chars : List Char) (s : Scanner) :
    (quotedTurn q chars).reads s =
      itemTurn (quotedChar? q) (fun chars c => chars ++ [c]) Prod.mk chars s.rest := by
  cases hs : s.rest with
  | nil => simp [quotedTurn, itemTurn, quotedChar?, hs]
  | cons c t =>
    have hlater : closesLater ('\n' :: t) = closesLater t :=
      closesLater_cons (by decide) (by decide) t
    by_cases hend : c = q
    · simp [quotedTurn, itemTurn, quotedChar?, hs, hend]
    · by_cases hn : c = '\n'
      · subst hn
        by_cases hq : q = '\''
        · cases hl : closesLater t <;> simp [quotedTurn, itemTurn, quotedChar?, hs, hlater, hq, hl]
        · simp [quotedTurn, itemTurn, quotedChar?, hs, hend, hq]
      · by_cases hb : c = '\\' ∧ q ≠ '\x60'
        · obtain ⟨rfl, hb⟩ := hb
          cases t with
          | nil => simp [quotedTurn, itemTurn, quotedChar?, hs, hend, hb]
          | cons d t =>
            by_cases hd : d = '\n' <;>
              simp [quotedTurn, itemTurn, quotedChar?, hs, hend, hb, hd]
        · simp [quotedTurn, itemTurn, quotedChar?, hs, hend, hn, hb]

theorem quotedTurn_advances (quote : Char) : Advances (quotedTurn quote) :=
  advances_of_items (reads_quotedTurn quote) (quotedChar?_progresses quote)

/-- Reads a quoted token (`_read_quoted`). -/
def readQuoted : Scan (List Char) := do
  if ← startsWith ['\'', '\'', '\''] then
    advance 3
    throughMark ['\'', '\'', '\'']
  else
    match ← peek with
    | none => return []
    | some quote =>
      advance 1
      let chars ← loop (quotedTurn quote) (quotedTurn_advances quote) []
      skipChar quote
      return chars

theorem foldl_concat (chars cs : List Char) :
    cs.foldl (fun chars c => chars ++ [c]) chars = chars ++ cs := by
  induction cs generalizing chars with
  | nil => simp
  | cons c cs ih => simp [ih]

@[simp] theorem reads_readQuoted (s : Scanner) : readQuoted.reads s = Text.readQuoted s.rest := by
  have hloop : ∀ (q : Char) (s : Scanner),
      (loop (quotedTurn q) (quotedTurn_advances q) []).reads s = quotedChars q s.rest := by
    intro q s
    rw [reads_loop_items (reads_quotedTurn q) (quotedChar?_progresses q), foldl_concat,
      List.nil_append]
    rfl
  unfold Text.readQuoted
  split
  · rename_i hs
    simp [readQuoted, hs]
  · rename_i r hs
    simp [readQuoted, hs]
  · rename_i q r hne hs
    have hmark : ['\'', '\'', '\''].isPrefixOf (q :: r) = false :=
      isPrefixOf_eq_false fun t e => hne t (List.cons.inj e).1 (List.cons.inj e).2
    simp [readQuoted, hs, hmark, hloop]
    rfl

/-! ## Identifiers and values -/

/-- Reads an identifier, empty where none stands (`_parse_identifier`). -/
def parseIdentifier : Scan (List Char) := do
  if ← nextIs fun c => c == '"' || c == '\x60' then readQuoted else parseBareWord

@[simp] theorem reads_parseIdentifier (s : Scanner) :
    parseIdentifier.reads s = readIdentifier s.rest := by
  unfold readIdentifier
  split
  · rename_i hs; simp [parseIdentifier, hs, readWord]
  · rename_i c r hs; simp [parseIdentifier, hs]

/-- Reads the value of a setting (`_parse_value`). -/
def parseValue : Scan (List Char) := do
  if ← nextIs isQuote then readQuoted
  else trim <$> passed (skipUntil endsSetting)

@[simp] theorem reads_parseValue (s : Scanner) : parseValue.reads s = readValue s.rest := by
  unfold readValue
  split
  · rename_i hs; simp [parseValue, hs, trim, trimOf]
  · rename_i c r hs
    simp [parseValue, hs]

/-! ## Types -/

/-- One turn of the loop in `_parse_type` that goes through a parameter, with the parentheses that
are open. -/
def parameterTurn (depth : Nat) : Scan (ForInStep Nat) := do
  match ← peek with
  | none => return .done depth
  | some ch =>
    if ch == '\n' then
      return .done depth
    else
      advance 1
      if ch == '(' then
        return .yield (depth + 1)
      else if ch == ')' then
        return if depth - 1 = 0 then .done 0 else .yield (depth - 1)
      else
        return .yield depth

/-- What a turn makes of the text that is to be read. -/
def parameterStep (depth : Nat) : List Char → ForInStep Nat × List Char
  | [] => (.done depth, [])
  | c :: r =>
    if c == '\n' then (.done depth, c :: r)
    else if c == '(' then (.yield (depth + 1), r)
    else if c == ')' then (if depth - 1 = 0 then .done 0 else .yield (depth - 1), r)
    else (.yield depth, r)

theorem reads_parameterTurn (depth : Nat) (s : Scanner) :
    (parameterTurn depth).reads s = parameterStep depth s.rest := by
  cases hs : s.rest with
  | nil => simp [parameterTurn, parameterStep, hs]
  | cons c r => simp [parameterTurn, parameterStep, hs]

theorem parameterTurn_advances : Advances parameterTurn := by
  refine advances_of_reads reads_parameterTurn fun a b t h => ?_
  cases t with
  | nil => simp [parameterStep] at h
  | cons c r =>
    unfold parameterStep at h ⊢
    (repeat' split at h) <;> simp_all

/-- Reads the parameter of a type, empty where none comes. -/
def parseParameter : Scan (List Char) := do
  if ← nextIs (· == '(') then passed (loop parameterTurn parameterTurn_advances 0) else return []

/-- Reads a type, empty where none stands (`_parse_type`). -/
def parseType : Scan (List Char) := do
  if ← nextIs (· == '"') then readQuoted
  else
    let column ← passed (advanceWhile isTypeChar)
    if column.isEmpty then
      return []
    else
      skipInlineWhitespace
      let parameter ← parseParameter
      return column ++ parameter

/-- What the loop leaves, given the parentheses that are open. -/
def afterParameter : Nat → List Char → List Char
  | _, [] => []
  | depth, c :: r =>
    if c == '\n' then c :: r
    else if c == '(' then afterParameter (depth + 1) r
    else if c == ')' then if depth - 1 = 0 then r else afterParameter (depth - 1) r
    else afterParameter depth r

theorem rest_loop_parameter (depth : Nat) (s : Scanner) :
    ((loop parameterTurn parameterTurn_advances depth).reads s).2 = afterParameter depth s.rest := by
  refine rest_loop reads_parameterTurn (fun depth t => ?_) depth s
  cases t with
  | nil => rfl
  | cons c r =>
    rw [afterParameter, parameterStep]
    (repeat' split) <;> simp_all

theorem afterParameter_succ (depth : Nat) (t : List Char) :
    afterParameter (depth + 1) t = (readParameter depth t).2 := by
  fun_induction readParameter depth t <;> simp_all [afterParameter]

theorem readParameter_append (depth : Nat) (t : List Char) :
    (readParameter depth t).1 ++ (readParameter depth t).2 = t := by
  fun_induction readParameter depth t <;> simp_all

theorem any_head?_eq_false {c : Char} {t : List Char} (h : ∀ r, t = c :: r → False) :
    t.head?.any (· == c) = false := by
  cases t with
  | nil => rfl
  | cons d r =>
    have hd : d ≠ c := fun e => h r (by rw [e])
    simp [hd]

theorem reads_parseParameter_open {s : Scanner} {r : List Char} (hs : s.rest = '(' :: r) :
    parseParameter.reads s = (readParameter 0 r).map ('(' :: ·) id := by
  have hrest : afterParameter 0 ('(' :: r) = (readParameter 0 r).2 := afterParameter_succ 0 r
  have happend := readParameter_append 0 r
  simp only [parseParameter, reads_bind, reads_nextIs, reads_passed, rest_loop_parameter, rest_run,
    hs, hrest, List.head?_cons, Option.any_some, beq_self_eq_true, if_true]
  generalize readParameter 0 r = p at happend
  subst happend
  have hcount : ('(' :: (p.1 ++ p.2)).length - p.2.length = p.1.length + 1 := by
    rw [List.length_cons, List.length_append]; omega
  rw [hcount, List.take_succ_cons, List.take_left]
  rfl

theorem reads_parseParameter_none {s : Scanner} (hs : ∀ r, s.rest = '(' :: r → False) :
    parseParameter.reads s = ([], s.rest) := by
  simp [parseParameter, any_head?_eq_false hs]

@[simp] theorem reads_parseType (s : Scanner) : parseType.reads s = readType s.rest := by
  unfold readType
  split
  · rename_i hs; simp [parseType, hs]
  · rename_i hne
    simp only [parseType, readBareType, reads_bind, reads_nextIs, any_head?_eq_false hne, reads_ite,
      reads_passed_advanceWhile, reads_pure, rest_run, Bool.false_eq_true, if_false]
    split
    · rfl
    · split
      · rename_i r hs
        rw [@reads_parseParameter_open _ r (by simp [hs])]
        rfl
      · rename_i hopen
        rw [reads_parseParameter_none (by simpa using hopen)]
        simp

end Dbml.Scan
