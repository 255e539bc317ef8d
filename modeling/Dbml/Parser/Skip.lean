import Dbml.Parser.Lookahead
import Dbml.Text.Block
import Dbml.Text.LineEnd
import Dbml.Text.Value

/-!
# Skipping

The routines that pass text without a result: the blanks of a line, the rest of a line, comments,
and blanks and comments together. A loop that passes pieces of the text reads what a repetition of
the piece reads, and one that reads items gives what the items come to.

Results:
* `reads_loop_pieces`, `reads_loop_items`: what a loop over pieces and over items reads;
* `reads_skipWhitespace`, `reads_discardRestOfLine`: what stands behind blanks and comments, and
  behind the rest of a line.
-/
namespace Dbml.Scan

open Text

/-! ## Characters of a class -/

/-- One turn of `advanceWhile`. -/
def whileTurn (p : Char → Bool) (_ : Unit) : Scan (ForInStep Unit) := do
  if ← nextIs p then
    advance 1
    return .yield ()
  else
    return .done ()

theorem whileTurn_advances (p : Char → Bool) : Advances (whileTurn p) := by
  intro _ _ s h
  cases hs : s.rest with
  | nil => simp [whileTurn, hs] at h
  | cons c t => cases hc : p c <;> simp_all [whileTurn]

/-- Passes characters for as long as they are of a class. -/
def advanceWhile (p : Char → Bool) : Scan Unit := loop (whileTurn p) (whileTurn_advances p) ()

@[simp] theorem reads_advanceWhile (p : Char → Bool) (s : Scanner) :
    (advanceWhile p).reads s = ((), s.rest.dropWhile p) := by
  refine @reads_loop _ _ (fun _ t => if t.head?.any p then (.yield (), t.tail) else (.done (), t))
    (fun _ s => ?_) _ (fun _ t => ((), t.dropWhile p)) (fun _ t => ?_) () s
  · simp [whileTurn]
  · cases t with
    | nil => rfl
    | cons c t => cases hc : p c <;> simp [hc]

theorem take_dropWhile (p : Char → Bool) (t : List Char) :
    t.take (t.length - (t.dropWhile p).length) = t.takeWhile p := by
  have hsplit := congrArg List.length (@List.takeWhile_append_dropWhile _ p t)
  rw [List.length_append] at hsplit
  have hlen : t.length - (t.dropWhile p).length = (t.takeWhile p).length := by omega
  rw [hlen, ← List.prefix_iff_eq_take.1 (List.takeWhile_prefix p)]

@[simp] theorem reads_passed_advanceWhile (p : Char → Bool) (s : Scanner) :
    (passed (advanceWhile p)).reads s = (s.rest.takeWhile p, s.rest.dropWhile p) := by
  rw [reads_passed, reads_advanceWhile, take_dropWhile]

/-- Skips the blanks of a line (`_skip_inline_whitespace`). -/
def skipInlineWhitespace : Scan Unit := advanceWhile isInlineSpace

/-- Skips the rest of a line and its newline (`_skip_line`). -/
def skipLine : Scan Unit := do
  advanceWhile (· != '\n')
  advance 1

/-- Skips up to one of some characters (`_skip_until`). -/
def skipUntil (stops : Char → Bool) : Scan Unit := advanceWhile (!stops ·)

/-- Skips a block comment (`_skip_block_comment`). -/
def skipBlockComment : Scan Unit := do
  advance 2
  let _ ← throughMark ['*', '/']

@[simp] theorem reads_skipInlineWhitespace (s : Scanner) :
    skipInlineWhitespace.reads s = ((), skipInline s.rest) := reads_advanceWhile _ s

@[simp] theorem reads_skipLine (s : Scanner) : skipLine.reads s = ((), Text.skipLine s.rest) := by
  simp [skipLine, Text.skipLine]

@[simp] theorem reads_skipUntil (stops : Char → Bool) (s : Scanner) :
    (skipUntil stops).reads s = ((), s.rest.dropWhile (!stops ·)) := reads_advanceWhile _ s

@[simp] theorem reads_passed_skipUntil (stops : Char → Bool) (s : Scanner) :
    (passed (skipUntil stops)).reads s =
      (s.rest.takeWhile (!stops ·), s.rest.dropWhile (!stops ·)) := reads_passed_advanceWhile _ s

@[simp] theorem reads_skipBlockComment (s : Scanner) :
    skipBlockComment.reads s = ((), skipComment (s.rest.drop 2)) := by
  simp [skipBlockComment, skipComment]

/-! ## Pieces -/

/-- A turn that skips a piece, and where there is none, ends the loop behind what `stop` skips. -/
def pieceTurn (piece? : List Char → Option (List Char)) (stop : List Char → List Char)
    (t : List Char) : ForInStep Unit × List Char :=
  match piece? t with
  | some r => (.yield (), r)
  | none => (.done (), stop t)

section Pieces

variable {turn : Unit → Scan (ForInStep Unit)} {piece? : List Char → Option (List Char)}
  {stop : List Char → List Char} (hturn : ∀ a s, (turn a).reads s = pieceTurn piece? stop s.rest)
include hturn

theorem advances_of_pieces (hp : Skips piece?) : Advances turn := by
  refine advances_of_reads hturn fun _ _ t h => ?_
  unfold pieceTurn at h ⊢
  cases ht : piece? t with
  | none => simp [ht] at h
  | some r => exact (hp ht).2

theorem reads_loop_pieces (hp : Skips piece?) {h : Advances turn} (s : Scanner) :
    (loop turn h ()).reads s = ((), stop (skipMany piece? hp s.rest)) := by
  refine @reads_loop _ _ _ hturn _ (fun _ t => ((), stop (skipMany piece? hp t)))
    (fun _ t => ?_) () s
  unfold pieceTurn
  cases ht : piece? t with
  | none => rw [skipMany_of_none ht]
  | some r => rw [skipMany_of_some ht]

end Pieces

/-- A turn that reads an item, and where there is none, ends the loop with what `stop` makes of the
items before. -/
def itemTurn {α β : Type} (item? : List Char → Option (β × List Char)) (next : α → β → α)
    (stop : α → List Char → α × List Char) (a : α) (t : List Char) : ForInStep α × List Char :=
  match item? t with
  | some (b, r) => (.yield (next a b), r)
  | none => (.done (stop a t).1, (stop a t).2)

section Items

variable {α β : Type} {turn : α → Scan (ForInStep α)} {item? : List Char → Option (β × List Char)}
  {next : α → β → α} {stop : α → List Char → α × List Char}
  (hturn : ∀ a s, (turn a).reads s = itemTurn item? next stop a s.rest)
include hturn

theorem advances_of_items (hp : Progresses item?) : Advances turn := by
  refine advances_of_reads hturn fun _ _ t h => ?_
  unfold itemTurn at h ⊢
  cases ht : item? t with
  | none => simp [ht] at h
  | some p => exact (hp ht).2

theorem reads_loop_items (hp : Progresses item?) {h : Advances turn} (a : α) (s : Scanner) :
    (loop turn h a).reads s =
      stop ((many item? hp s.rest).1.foldl next a) (many item? hp s.rest).2 := by
  refine @reads_loop _ _ _ hturn _ (fun a t => stop ((many item? hp t).1.foldl next a)
    (many item? hp t).2) (fun a t => ?_) a s
  unfold itemTurn
  cases ht : item? t with
  | none => rw [many_of_none ht]; rfl
  | some p => obtain ⟨b, r⟩ := p; rw [many_of_some ht]; rfl

end Items

/-! ## Blanks and comments -/

/-- One turn of `_skip_whitespace`. -/
def whitespaceTurn (_ : Unit) : Scan (ForInStep Unit) := do
  if ← nextIs fun c => isInlineSpace c || c == '\n' then
    advance 1
    return .yield ()
  else if ← startsWith ['/', '/'] then
    skipLine
    return .yield ()
  else if ← startsWith ['/', '*'] then
    skipBlockComment
    return .yield ()
  else if ← nextIs (· == '#') then
    skipLine
    return .yield ()
  else
    return .done ()

theorem reads_whitespaceTurn (a : Unit) (s : Scanner) :
    (whitespaceTurn a).reads s = pieceTurn fillerPiece? id s.rest := by
  cases hs : s.rest with
  | nil => simp [whitespaceTurn, pieceTurn, fillerPiece?, hs]
  | cons c t =>
    simp only [whitespaceTurn, pieceTurn, fillerPiece?, comment?_eq, hs, reads_bind, reads_ite,
      reads_nextIs, reads_startsWith, reads_advance, reads_skipLine, reads_skipBlockComment,
      reads_pure, rest_run, List.head?_cons, Option.any_some]
    (repeat' split) <;> simp_all

theorem whitespaceTurn_advances : Advances whitespaceTurn :=
  advances_of_pieces reads_whitespaceTurn fillerPiece?_skips

/-- Skips blanks, newlines and comments (`_skip_whitespace`). -/
def skipWhitespace : Scan Unit := loop whitespaceTurn whitespaceTurn_advances ()

@[simp] theorem reads_skipWhitespace (s : Scanner) :
    skipWhitespace.reads s = ((), skipFiller s.rest) :=
  reads_loop_pieces reads_whitespaceTurn fillerPiece?_skips s

/-! ## The rest of a line -/

/-- One turn of `_discard_rest_of_line`. -/
def restOfLineTurn (_ : Unit) : Scan (ForInStep Unit) := do
  if ← atEnd then
    return .done ()
  else if ← nextIs (· == '\n') then
    advance 1
    return .done ()
  else if ← nextIs (· == '}') then
    return .done ()
  else if (← nextIs (· == '#')) || (← startsWith ['/', '/']) then
    skipLine
    return .done ()
  else if ← startsWith ['/', '*'] then
    skipBlockComment
    return .yield ()
  else
    advance 1
    return .yield ()

/-- The end of a line, behind which reading goes on; a closing brace is left. -/
def endLine : List Char → List Char
  | '}' :: r => '}' :: r
  | r => Text.skipLine r

theorem reads_restOfLineTurn (a : Unit) (s : Scanner) :
    (restOfLineTurn a).reads s = pieceTurn linePiece? endLine s.rest := by
  simp only [restOfLineTurn, reads_bind, reads_ite, reads_atEnd, reads_nextIs, reads_startsWith,
    reads_advance, reads_skipLine, reads_skipBlockComment, reads_pure, rest_run]
  generalize s.rest = t
  unfold pieceTurn
  fun_cases linePiece? t with
  | case1 => rfl
  | case2 => simp [endLine, Text.skipLine]
  | case3 => simp [endLine]
  | case4 => simp [endLine]
  | case5 => simp [endLine]
  | case6 => simp
  | case7 c r hnewline hbrace hhash hslashes hblock =>
    have hline : ['/', '/'].isPrefixOf (c :: r) = false :=
      isPrefixOf_eq_false fun t e => hslashes t (List.cons.inj e).1 (List.cons.inj e).2
    have hopen : ['/', '*'].isPrefixOf (c :: r) = false :=
      isPrefixOf_eq_false fun t e => hblock t (List.cons.inj e).1 (List.cons.inj e).2
    have hends : c ≠ '\n' ∧ c ≠ '}' ∧ c ≠ '#' := ⟨hnewline, hbrace, hhash⟩
    simp [hline, hopen, hends]

theorem restOfLineTurn_advances : Advances restOfLineTurn :=
  advances_of_pieces reads_restOfLineTurn linePiece?_skips

/-- Drops the rest of a line, but no closing brace (`_discard_rest_of_line`). -/
def discardRestOfLine : Scan Unit := loop restOfLineTurn restOfLineTurn_advances ()

@[simp] theorem reads_discardRestOfLine (s : Scanner) :
    discardRestOfLine.reads s = ((), dropLine s.rest) :=
  reads_loop_pieces reads_restOfLineTurn linePiece?_skips s

end Dbml.Scan
