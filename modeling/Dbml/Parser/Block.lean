import Dbml.Parser.Token

/-!
# Skipping past quoted tokens

An unknown setting, the header of a block and its body are passed without being read. What stands in
quotes there is passed as one token, whatever it holds; in a body this goes for comments, too.
-/
namespace Dbml.Scan

open Text

/-! ## Up to a character -/

/-- One turn of a loop that passes characters and quoted tokens up to a character of a class. -/
def unquotedTurn (ends : Char → Bool) (_ : Unit) : Scan (ForInStep Unit) := do
  if ← nextIs (!ends ·) then
    if ← nextIs isQuote then
      let _ ← readQuoted
    else
      advance 1
    return .yield ()
  else
    return .done ()

/-- A character or a quoted token, none at a character of the class. -/
def unquotedPiece? (ends : Char → Bool) (s : List Char) : Option (List Char) :=
  match s with
  | [] => none
  | c :: r => if ends c then none else if isQuote c then some (Text.readQuoted s).2 else some r

theorem settingPiece?_eq : settingPiece? = unquotedPiece? endsSetting := by
  funext s; cases s <;> rfl

theorem headerPiece?_eq : headerPiece? = unquotedPiece? fun c => c == '{' || c == '\n' := by
  funext s; cases s <;> rfl

theorem unquotedPiece?_skips (ends : Char → Bool) : Skips (unquotedPiece? ends) := by
  intro s r h
  unfold unquotedPiece? at h
  split at h
  · cases h
  · split at h
    · cases h
    · split at h
      · obtain rfl := Option.some.inj h; exact readQuoted_shorter _ _
      · obtain rfl := Option.some.inj h; exact .cons _ _

theorem reads_unquotedTurn (ends : Char → Bool) (a : Unit) (s : Scanner) :
    (unquotedTurn ends a).reads s = pieceTurn (unquotedPiece? ends) id s.rest := by
  cases hs : s.rest with
  | nil => simp [unquotedTurn, pieceTurn, unquotedPiece?, hs]
  | cons c r =>
    cases he : ends c with
    | true => simp [unquotedTurn, pieceTurn, unquotedPiece?, hs, he]
    | false => cases hq : isQuote c <;> simp [unquotedTurn, pieceTurn, unquotedPiece?, hs, he, hq]

theorem unquotedTurn_advances (ends : Char → Bool) : Advances (unquotedTurn ends) :=
  advances_of_pieces (reads_unquotedTurn ends) (unquotedPiece?_skips ends)

/-- Passes characters and quoted tokens up to a character of a class. -/
def skipUnquoted (ends : Char → Bool) : Scan Unit :=
  loop (unquotedTurn ends) (unquotedTurn_advances ends) ()

@[simp] theorem reads_skipUnquoted (ends : Char → Bool) (s : Scanner) :
    (skipUnquoted ends).reads s =
      ((), skipMany (unquotedPiece? ends) (unquotedPiece?_skips ends) s.rest) :=
  reads_loop_pieces (reads_unquotedTurn ends) (unquotedPiece?_skips ends) s

/-- Skips an unknown setting (`_skip_setting`). -/
def skipSetting : Scan Unit := skipUnquoted endsSetting

@[simp] theorem reads_skipSetting (s : Scanner) :
    skipSetting.reads s = ((), Text.skipSetting s.rest) := by
  have hpiece := settingPiece?_eq
  simp only [skipSetting, reads_skipUnquoted, Text.skipSetting, hpiece]

/-! ## Blocks -/

/-- One turn of the loop in `_skip_block` that goes through a body, with the braces that are
open. -/
def bodyTurn (depth : Nat) : Scan (ForInStep Nat) := do
  match ← peek with
  | none => return .done depth
  | some ch =>
    if isQuote ch then
      let _ ← readQuoted
      return .yield depth
    else if ch == '#' || (← startsWith ['/', '/']) then
      skipLine
      return .yield depth
    else if ← startsWith ['/', '*'] then
      skipBlockComment
      return .yield depth
    else
      advance 1
      if ch == '{' then
        return .yield (depth + 1)
      else if ch == '}' then
        return if depth - 1 = 0 then .done 0 else .yield (depth - 1)
      else
        return .yield depth

/-- What a turn makes of the text that is to be read. -/
def bodyStep (depth : Nat) (t : List Char) : ForInStep Nat × List Char :=
  match bodyPiece? t, t with
  | some r, _ => (.yield depth, r)
  | none, [] => (.done depth, [])
  | none, c :: r =>
    if c == '{' then (.yield (depth + 1), r)
    else (if depth - 1 = 0 then .done 0 else .yield (depth - 1), r)

theorem reads_bodyTurn (depth : Nat) (s : Scanner) :
    (bodyTurn depth).reads s = bodyStep depth s.rest := by
  cases hs : s.rest with
  | nil => simp [bodyTurn, bodyStep, bodyPiece?, hs]
  | cons c r =>
    cases hq : isQuote c with
    | true => simp [bodyTurn, bodyStep, bodyPiece?, hs, hq]
    | false =>
      by_cases hb : c = '{' ∨ c = '}'
      · rcases hb with rfl | rfl <;> simp [bodyTurn, bodyStep, bodyPiece?, hs, hq, List.isPrefixOf]
      · obtain ⟨hopen, hclose⟩ := not_or.1 hb
        by_cases hhash : c = '#'
        · subst hhash
          simp [bodyTurn, bodyStep, bodyPiece?, comment?_eq, hs, hq, List.isPrefixOf]
        · cases hline : ['/', '/'].isPrefixOf (c :: r) with
          | true => simp [bodyTurn, bodyStep, bodyPiece?, comment?_eq, hs, hq, hopen, hclose, hline]
          | false =>
            cases hblock : ['/', '*'].isPrefixOf (c :: r) <;>
              simp [bodyTurn, bodyStep, bodyPiece?, comment?_eq, hs, hq, hopen, hclose, hhash,
                hline, hblock]

/-- What the loop leaves, given the braces that are open. -/
def afterBody (depth : Nat) (t : List Char) : List Char :=
  match skipToBrace t with
  | [] => []
  | c :: r =>
    if c == '{' then skipBody depth r
    else match depth - 1 with
      | 0 => r
      | outer + 1 => skipBody outer r

theorem afterBody_succ (depth : Nat) (t : List Char) :
    afterBody (depth + 1) t = skipBody depth t := by
  rw [afterBody, skipBody_eq]; rfl

theorem afterBody_open (r : List Char) : afterBody 0 ('{' :: r) = skipBody 0 r := by
  rw [afterBody, skipToBrace, skipMany_of_none rfl]; rfl

theorem bodyTurn_advances : Advances bodyTurn := by
  refine advances_of_reads reads_bodyTurn fun a b t h => ?_
  unfold bodyStep at h ⊢
  cases hp : bodyPiece? t with
  | some r => exact (bodyPiece?_skips hp).2
  | none =>
    rw [hp] at h
    cases t with
    | nil => simp at h
    | cons c r => dsimp only; split <;> exact Nat.lt_succ_self _

theorem rest_loop_body (depth : Nat) (s : Scanner) :
    ((loop bodyTurn bodyTurn_advances depth).reads s).2 = afterBody depth s.rest := by
  refine rest_loop reads_bodyTurn (fun depth t => ?_) depth s
  unfold bodyStep
  cases hp : bodyPiece? t with
  | some r =>
    show afterBody depth t = afterBody depth r
    rw [afterBody, afterBody, skipToBrace, skipMany_of_some hp, skipToBrace]
  | none =>
    rw [afterBody, skipToBrace, skipMany_of_none hp]
    cases t with
    | nil => rfl
    | cons c r =>
      dsimp only
      split
      · exact (afterBody_succ depth r).symm
      · cases hd : depth - 1 with
        | zero => rfl
        | succ outer => exact (afterBody_succ outer r).symm

/-- Skips a header and a body between braces (`_skip_block`). -/
def skipBlock : Scan Unit := do
  skipUnquoted fun c => c == '{' || c == '\n'
  if ← nextIs (· == '\n') then skipWhitespace
  if ← nextIs (· == '{') then
    let _ ← loop bodyTurn bodyTurn_advances 0

theorem skipFiller_if (t : List Char) : (match t with | '\n' :: _ => skipFiller t | _ => t) =
    if t.head?.any (· == '\n') then skipFiller t else t := by
  split
  · rfl
  · rename_i hne; rw [any_head?_eq_false hne]; rfl

theorem skipBody_if (t : List Char) : (match t with | '{' :: r => skipBody 0 r | _ => t) =
    if t.head?.any (· == '{') then afterBody 0 t else t := by
  split
  · exact (afterBody_open _).symm
  · rename_i hne; rw [any_head?_eq_false hne]; rfl

theorem skipBlock_eq (s : List Char) : Text.skipBlock s =
    let t := skipMany headerPiece? headerPiece?_skips s
    let u := if t.head?.any (· == '\n') then skipFiller t else t
    if u.head?.any (· == '{') then afterBody 0 u else u := by
  dsimp only; rw [← skipFiller_if]; exact skipBody_if _

@[simp] theorem reads_skipBlock (s : Scanner) :
    skipBlock.reads s = ((), Text.skipBlock s.rest) := by
  have hpiece := headerPiece?_eq
  simp only [skipBlock, skipBlock_eq, hpiece, reads_bind, reads_skipUnquoted, reads_nextIs,
    reads_ite, reads_pure, reads_skipWhitespace, rest_loop_body, rest_run]
  split <;> split <;> rfl

end Dbml.Scan
