import Dbml.Text.Quoted

/-!
# Skipped blocks

Some blocks are recognised but hold nothing that the schema keeps. Such a block is a header and a
body between braces. Braces nest; those inside quoted tokens and comments do not count.
-/
namespace Dbml.Text

/-- Skips one character or quoted token of a block's header, which ends at a brace or a newline (a
turn of the first loop in `_skip_block`). -/
def headerPiece? (s : List Char) : Option (List Char) :=
  match s with
  | [] => none
  | c :: r =>
    if c == '{' || c == '\n' then none else if isQuote c then some (readQuoted s).2 else some r

theorem headerPiece?_skips : Skips headerPiece? := by
  intro s r h
  unfold headerPiece? at h; split at h
  · simp at h
  · split at h
    · simp at h
    · split at h
      · obtain rfl := Option.some.inj h; exact readQuoted_shorter _ _
      · obtain rfl := Option.some.inj h; exact .cons _ _

/-- Skips one quoted token, comment or character of a block's body other than a brace (a turn of the
second loop in `_skip_block`). -/
def bodyPiece? (s : List Char) : Option (List Char) :=
  match s with
  | [] => none
  | c :: r =>
    if isQuote c then some (readQuoted s).2
    else if c == '{' || c == '}' then none
    else some ((comment? s).getD r)

theorem bodyPiece?_skips : Skips bodyPiece? := by
  intro s r h
  unfold bodyPiece? at h; split at h
  · simp at h
  · split at h
    · obtain rfl := Option.some.inj h; exact readQuoted_shorter _ _
    · split at h
      · simp at h
      · obtain rfl := Option.some.inj h
        cases e : comment? (_ :: _) with
        | none => exact .cons _ _
        | some t => exact comment?_skips e

/-- The text up to the next brace that counts. -/
def skipToBrace (s : List Char) : List Char := skipMany bodyPiece? bodyPiece?_skips s

theorem skipToBrace_suffix (s : List Char) : skipToBrace s <:+ s := skipMany_suffix s

/-- The text after a block's body, given the text after its opening brace and the number of further
braces that are open inside it (the second loop in `_skip_block`). -/
def skipBody (depth : Nat) (s : List Char) : List Char :=
  match _h : skipToBrace s with
  | [] => []
  | c :: r =>
    if c == '{' then skipBody (depth + 1) r
    else match depth with
      | 0 => r
      | outer + 1 => skipBody outer r
termination_by s.length
decreasing_by
  all_goals
    have := (skipToBrace_suffix s).length_le
    simp_all only [List.length_cons]; omega

theorem skipBody_eq (depth : Nat) (s : List Char) :
    skipBody depth s = match skipToBrace s with
      | [] => []
      | c :: r =>
        if c == '{' then skipBody (depth + 1) r
        else match depth with
          | 0 => r
          | outer + 1 => skipBody outer r := by
  rw [skipBody]; split <;> simp_all

theorem skipBody_suffix (depth : Nat) (s : List Char) : skipBody depth s <:+ s := by
  induction h : s.length using Nat.strongRecOn generalizing depth s with
  | _ n ih =>
    have hs := skipToBrace_suffix s
    rw [skipBody]; split
    · exact List.nil_suffix
    · rename_i c r e
      rw [e] at hs
      have hr : r <:+ s := (List.suffix_cons c r).trans hs
      have hl : r.length < n := by have := hs.length_le; simp at this; omega
      split
      · exact (ih _ hl _ _ rfl).trans hr
      · split
        · exact hr
        · exact (ih _ hl _ _ rfl).trans hr

/-- Skips the header and the body of a block (`_skip_block`). The opening brace may stand on a later
line; without one only the header is skipped. -/
def skipBlock (s : List Char) : List Char :=
  let r := skipMany headerPiece? headerPiece?_skips s
  let r := match r with
    | '\n' :: _ => skipFiller r
    | _ => r
  match r with
  | '{' :: t => skipBody 0 t
  | _ => r

theorem skipBlock_suffix_header (s : List Char) :
    skipBlock s <:+ skipMany headerPiece? headerPiece?_skips s := by
  have h : ∀ r : List Char, (match r with | '\n' :: _ => skipFiller r | _ => r) <:+ r := by
    intro r; split
    · exact skipFiller_suffix _
    · exact List.suffix_rfl
  unfold skipBlock
  dsimp only
  refine List.IsSuffix.trans ?_ (h _)
  split
  · rename_i t e
    rw [e]
    exact (skipBody_suffix 0 t).trans (List.suffix_cons _ _)
  · exact List.suffix_rfl

theorem skipBlock_suffix (s : List Char) : skipBlock s <:+ s :=
  (skipBlock_suffix_header s).trans (skipMany_suffix s)

/-- A block whose header is not empty is skipped at least in part. -/
theorem skipBlock_shorter {c : Char} {s : List Char} (h : c ≠ '{') (h' : c ≠ '\n') :
    Shorter (skipBlock (c :: s)) (c :: s) := by
  have : ∃ r, headerPiece? (c :: s) = some r := by
    have : (c == '{' || c == '\n') = false := by simp [h, h']
    simp only [headerPiece?, this, Bool.false_eq_true, if_false]
    split <;> exact ⟨_, rfl⟩
  obtain ⟨r, hr⟩ := this
  have hb := skipBlock_suffix_header (c :: s)
  rw [skipMany_of_some hr] at hb
  exact Shorter.trans_suffix (hb.trans (skipMany_suffix r)) (headerPiece?_skips hr)

end Dbml.Text
