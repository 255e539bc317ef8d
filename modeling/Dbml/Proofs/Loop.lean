import Dbml.Outline.Document

/-!
# The loops of the reader

A reader goes through a text in loops: statement by statement, line by line, character by
character. Where a loop stands it either is left or takes a turn, and then stands where the turn
stopped reading. Most turns are steps of a repetition. But a separator between settings has a turn
of its own, and so has each brace inside a block and each parenthesis inside a parameter.

The loops that run take the same turns over a cursor: what each of them reads is a lemma beside it
(`Scan.reads_whitespaceTurn`, `Scan.reads_settingsTurn`, `Routine.schemaTurn_performs` and their
like).

Results:
* `turns_settings`, `turns_blockBody`: in turns of their own, separators and braces are passed to
  where the reader goes on;
* `turns`: a turn of any loop takes at least one character, whatever stands at the front, and where
  the loop is left the reader goes on.
-/
namespace Dbml

open Text Outline

/-- A loop of the reader. -/
inductive Loop where
  | statements
  | tableBody
  | columnSettings
  | tableSettings
  | refBlock
  /-- The names of an endpoint behind its first one. -/
  | endpointParts
  /-- The header of a skipped block. -/
  | blockHeader
  /-- The body of a skipped block, where so many of its braces are open. -/
  | blockBody (depth : Nat)
  /-- A single setting that is skipped. -/
  | unknownSetting
  | lineRest
  /-- A token in quotes behind its opening quote. -/
  | quoted (quote : Char)
  | filler
  /-- The parameter of a type, where so many of its parentheses are open. -/
  | typeParameter (depth : Nat)
  /-- A run of characters of a class. -/
  | run (p : Char → Bool)

namespace Loop

/-! ## Turns -/

/-- The text after one turn of a loop over settings, of which `read` reads one. -/
def nextSetting? {α : Type} (read : List Char → α × List Char) (s : List Char) :
    Option (List Char) :=
  match skipInline s with
  | [] => none
  | c :: r => if endsSettings c then none else some (if c == ',' then r else (read (c :: r)).2)

/-- The text after one turn in a block's body, and how many braces are open there. -/
def nextInBody? : Nat → List Char → Option (Nat × List Char)
  | 0, '{' :: r => some (1, r)
  | 0, _ => none
  | inner + 1, s =>
    match bodyPiece? s with
    | some r => some (inner + 1, r)
    | none =>
      match s with
      | [] => none
      | c :: r =>
        if c == '{' then some (inner + 2, r)
        else match inner with
          | 0 => none
          | outer + 1 => some (outer + 1, r)

/-- The text after one turn in the parameter of a type, and how many parentheses are open there. -/
def nextInParameter? : Nat → List Char → Option (Nat × List Char)
  | 0, '(' :: r => some (1, r)
  | 0, _ => none
  | _ + 1, [] => none
  | inner + 1, c :: r =>
    if c == '\n' then none
    else if c == '(' then some (inner + 2, r)
    else if c == ')' then
      match inner with
      | 0 => none
      | outer + 1 => some (outer + 1, r)
    else some (inner + 1, r)

/-- One turn of a loop: how the loop goes on, and with which text. None where it is left. -/
def next? : Loop → List Char → Option (Loop × List Char)
  | statements, s => (item? s).map fun p => (statements, p.2)
  | tableBody, s => (line? s).map fun p => (tableBody, p.2)
  | columnSettings, s => (nextSetting? readSetting s).map fun r => (columnSettings, r)
  | tableSettings, s => (nextSetting? readTableSetting s).map fun r => (tableSettings, r)
  | refBlock, s => (blockRefLine? s).map fun p => (refBlock, p.2)
  | endpointParts, s => (namePart? s).map fun p => (endpointParts, p.2)
  | blockHeader, s => (headerPiece? s).map fun r => (blockHeader, r)
  | blockBody depth, s => (nextInBody? depth s).map fun p => (blockBody p.1, p.2)
  | unknownSetting, s => (settingPiece? s).map fun r => (unknownSetting, r)
  | lineRest, s => (linePiece? s).map fun r => (lineRest, r)
  | quoted q, s => (quotedChar? q s).map fun p => (quoted q, p.2)
  | filler, s => (fillerPiece? s).map fun r => (filler, r)
  | typeParameter depth, s => (nextInParameter? depth s).map fun p => (typeParameter p.1, p.2)
  | run p, c :: r => if p c then some (run p, r) else none
  | run _, [] => none

/-- What is left unread where a loop is left. -/
def finish : Loop → List Char → List Char
  | statements, s => skipFiller s
  | tableBody, s => skipFiller s
  | columnSettings, s => skipInline s
  | tableSettings, s => skipInline s
  | refBlock, s => skipFiller s
  | endpointParts, s => (endpointOfNames [] s).2
  | blockHeader, s => s
  | blockBody 0, s => s
  | blockBody (_ + 1), s => dropChar '}' s
  | unknownSetting, s => s
  | lineRest, s =>
    match s with
    | '}' :: r => '}' :: r
    | r => skipLine r
  | quoted _, s => s
  | filler, s => s
  | typeParameter 0, s => s
  | typeParameter (_ + 1), s => dropChar ')' s
  | run _, s => s

/-- What the reader goes on with behind a loop. -/
def after : Loop → List Char → List Char
  | statements, s => skipFiller (many item? item?_progresses s).2
  | tableBody, s => skipFiller (many line? line?_progresses s).2
  | columnSettings, s => skipSeparators (many columnSetting? columnSetting?_progresses s).2
  | tableSettings, s => skipSeparators (many tableSetting? tableSetting?_progresses s).2
  | refBlock, s => skipFiller (many blockRefLine? blockRefLine?_progresses s).2
  | endpointParts, s => (endpointOfNames [] (many namePart? namePart?_progresses s).2).2
  | blockHeader, s => skipMany headerPiece? headerPiece?_skips s
  | blockBody 0, s =>
    match s with
    | '{' :: r => skipBody 0 r
    | r => r
  | blockBody (inner + 1), s => skipBody inner s
  | unknownSetting, s => skipSetting s
  | lineRest, s => dropLine s
  | quoted q, s => (quotedChars q s).2
  | filler, s => skipFiller s
  | typeParameter 0, s =>
    match s with
    | '(' :: r => (readParameter 0 r).2
    | r => r
  | typeParameter (inner + 1), s => (readParameter inner s).2
  | run p, s => s.dropWhile p

/-- What one turn of a loop does with a text. -/
structure Turns (l : Loop) (s : List Char) : Prop where
  goes : ∀ k r, l.next? s = some (k, r) → Shorter r s ∧ l.after s = k.after r
  stops : l.next? s = none → l.finish s <:+ s ∧ l.after s = l.finish s

theorem Turns.of_some {l k : Loop} {s r : List Char} (h : l.next? s = some (k, r))
    (hs : Shorter r s) (ha : l.after s = k.after r) : l.Turns s where
  goes k' r' h' := by
    obtain ⟨rfl, rfl⟩ := Prod.mk.inj (Option.some.inj (h.symm.trans h'))
    exact ⟨hs, ha⟩
  stops h' := by rw [h] at h'; cases h'

theorem Turns.of_none {l : Loop} {s : List Char} (h : l.next? s = none) (hs : l.finish s <:+ s)
    (ha : l.after s = l.finish s) : l.Turns s where
  goes k r h' := by rw [h] at h'; cases h'
  stops _ := ⟨hs, ha⟩

/-- A loop whose turns are the steps of a repetition. -/
theorem turns_many (l : Loop) {α : Type} {step : List Char → Option (α × List Char)}
    {p : Progresses step} (hnext : ∀ s, l.next? s = (step s).map fun a => (l, a.2))
    (hafter : ∀ s, l.after s = l.finish (many step p s).2) (hfinish : ∀ s, l.finish s <:+ s)
    (s : List Char) : l.Turns s := by
  cases h : step s with
  | none =>
    exact .of_none (by rw [hnext, h]; rfl) (hfinish s) (by rw [hafter, many_of_none h])
  | some a =>
    exact .of_some (by rw [hnext, h]; rfl) (p h) (by rw [hafter, hafter, many_of_some h])

/-- A loop whose turns are the steps of a skipping repetition. -/
theorem turns_skipMany (l : Loop) {step : List Char → Option (List Char)} {p : Skips step}
    (hnext : ∀ s, l.next? s = (step s).map fun r => (l, r))
    (hafter : ∀ s, l.after s = l.finish (skipMany step p s)) (hfinish : ∀ s, l.finish s <:+ s)
    (s : List Char) : l.Turns s := by
  cases h : step s with
  | none =>
    exact .of_none (by rw [hnext, h]; rfl) (hfinish s) (by rw [hafter, skipMany_of_none h])
  | some r =>
    exact .of_some (by rw [hnext, h]; rfl) (p h) (by rw [hafter, hafter, skipMany_of_some h])

/-! ## Settings -/

/-- A loop over settings, of which `read` reads one. -/
theorem turns_settings {l : Loop} {α : Type} {read : List Char → α × List Char}
    {setting? : List Char → Option (α × List Char)} {p : Progresses setting?}
    (hsetting : ∀ s, setting? s = match skipSeparators s with
      | [] => none
      | c :: r => if endsSettings c then none else some (read (c :: r)))
    (hnext : ∀ s, l.next? s = (nextSetting? read s).map fun r => (l, r))
    (hafter : ∀ s, l.after s = skipSeparators (many setting? p s).2)
    (hfinish : ∀ s, l.finish s = skipInline s) (s : List Char) : l.Turns s := by
  have hnone : ∀ {t}, setting? t = none → l.after t = skipSeparators t := fun h => by
    rw [hafter, many_of_none h]
  have hsome : ∀ {t a u}, setting? t = some (a, u) → l.after t = l.after u := fun h => by
    rw [hafter, hafter, many_of_some h]
  -- A separator does not change what the settings behind it are.
  have hcongr : ∀ {t u}, skipSeparators t = skipSeparators u → l.after t = l.after u := by
    intro t u htu
    have hsame : setting? t = setting? u := by rw [hsetting, hsetting, htu]
    cases hu : setting? u with
    | none => rw [hnone hu, hnone (hsame.trans hu), htu]
    | some a => rw [hsome hu, hsome (hsame.trans hu)]
  have hsuffix := skipInline_suffix s
  have hset := hsetting s
  cases hs : skipInline s with
  | nil =>
    have hsep : skipSeparators s = [] := by rw [← skipSeparators_skipInline, hs]; rfl
    rw [hsep] at hset
    refine .of_none (by rw [hnext, nextSetting?, hs]; rfl) (hfinish s ▸ hsuffix) ?_
    rw [hfinish, hnone hset, hsep, hs]
  | cons c r =>
    rw [hs] at hsuffix
    have hsep := skipSeparators_of_skipInline hs
    have hturn : l.next? s =
        if endsSettings c then none
        else some (l, if c == ',' then r else (read (c :: r)).2) := by
      rw [hnext, nextSetting?, hs]
      by_cases he : endsSettings c = true <;> simp [he]
    by_cases hc : c = ','
    · subst hc
      exact .of_some hturn ((Shorter.cons _ r).suffix_trans hsuffix) (hcongr hsep)
    · have hc : (c == ',') = false := beq_eq_false_iff_ne.2 hc
      simp only [hc, Bool.false_eq_true, if_false] at hsep hturn
      rw [hsep] at hset
      by_cases he : endsSettings c = true
      · simp only [he, if_true] at hset hturn
        refine .of_none hturn (by rw [hfinish, hs]; exact hsuffix) ?_
        rw [hfinish, hnone hset, hsep, hs]
      · rw [if_neg he] at hturn
        simp only [he] at hset
        exact .of_some hturn (p hset) (hsome hset)

/-! ## Braces and parentheses -/

theorem skipBody_congr {depth : Nat} {s t : List Char} (h : skipToBrace s = skipToBrace t) :
    skipBody depth s = skipBody depth t := by
  rw [skipBody_eq, skipBody_eq, h]

theorem skipBody_nil (depth : Nat) : skipBody depth [] = [] := by
  rw [skipBody_eq, show skipToBrace [] = [] from skipMany_of_none rfl]

theorem skipBody_of_brace (depth : Nat) {c : Char} {r : List Char}
    (h : bodyPiece? (c :: r) = none) :
    skipBody depth (c :: r) = if c == '{' then skipBody (depth + 1) r else match depth with
      | 0 => r
      | outer + 1 => skipBody outer r := by
  have hbrace : skipToBrace (c :: r) = c :: r := skipMany_of_none h
  have hbody := skipBody_eq depth (c :: r)
  rw [hbrace] at hbody
  exact hbody

theorem brace_of_bodyPiece? {c : Char} {r : List Char} (h : bodyPiece? (c :: r) = none) :
    c = '{' ∨ c = '}' := by
  rw [bodyPiece?] at h
  split at h
  · cases h
  · split at h
    · rename_i hc; simpa using hc
    · cases h

theorem turns_blockBody (depth : Nat) (s : List Char) : (blockBody depth).Turns s := by
  cases depth with
  | zero =>
    cases s with
    | nil => exact .of_none rfl List.suffix_rfl rfl
    | cons c r =>
      by_cases hc : c = '{'
      · subst hc; exact .of_some rfl (.cons _ r) rfl
      · have hnext : (blockBody 0).next? (c :: r) = none := by simp [next?, nextInBody?, hc]
        have hafter : (blockBody 0).after (c :: r) = c :: r := by simp [after, hc]
        exact .of_none hnext List.suffix_rfl hafter
  | succ inner =>
    cases hpiece : bodyPiece? s with
    | some t =>
      have hnext : (blockBody (inner + 1)).next? s = some (blockBody (inner + 1), t) := by
        simp [next?, nextInBody?, hpiece]
      exact .of_some hnext (bodyPiece?_skips hpiece) (skipBody_congr (skipMany_of_some hpiece))
    | none =>
      cases s with
      | nil => exact .of_none rfl List.suffix_rfl (skipBody_nil inner)
      | cons c r =>
        have hbody := skipBody_of_brace inner hpiece
        rcases brace_of_bodyPiece? hpiece with rfl | rfl
        · have hnext : (blockBody (inner + 1)).next? ('{' :: r) =
              some (blockBody (inner + 2), r) := by
            simp [next?, nextInBody?, hpiece]
          exact .of_some hnext (.cons _ r) hbody
        · cases inner with
          | zero =>
            have hnext : (blockBody 1).next? ('}' :: r) = none := by
              simp [next?, nextInBody?, hpiece]
            exact .of_none hnext (List.suffix_cons _ r) hbody
          | succ outer =>
            have hnext : (blockBody (outer + 2)).next? ('}' :: r) =
                some (blockBody (outer + 1), r) := by
              simp [next?, nextInBody?, hpiece]
            exact .of_some hnext (.cons _ r) hbody

theorem turns_typeParameter (depth : Nat) (s : List Char) : (typeParameter depth).Turns s := by
  cases depth with
  | zero =>
    cases s with
    | nil => exact .of_none rfl List.suffix_rfl rfl
    | cons c r =>
      by_cases hc : c = '('
      · subst hc; exact .of_some rfl (.cons _ r) rfl
      · have hnext : (typeParameter 0).next? (c :: r) = none := by
          simp [next?, nextInParameter?, hc]
        have hafter : (typeParameter 0).after (c :: r) = c :: r := by simp [after, hc]
        exact .of_none hnext List.suffix_rfl hafter
  | succ inner =>
    cases s with
    | nil => exact .of_none rfl List.suffix_rfl rfl
    | cons c r =>
      by_cases hn : c = '\n'
      · subst hn; exact .of_none rfl List.suffix_rfl rfl
      · by_cases ho : c = '('
        · subst ho; exact .of_some rfl (.cons _ r) rfl
        · by_cases hc : c = ')'
          · subst hc
            cases inner with
            | zero => exact .of_none rfl (List.suffix_cons _ r) rfl
            | succ outer => exact .of_some rfl (.cons _ r) rfl
          · have hnext : (typeParameter (inner + 1)).next? (c :: r) =
                some (typeParameter (inner + 1), r) := by
              simp [next?, nextInParameter?, hn, ho, hc]
            have hafter : (typeParameter (inner + 1)).after (c :: r) =
                (typeParameter (inner + 1)).after r := by
              simp [after, readParameter, hn, ho, hc]
            exact .of_some hnext (.cons _ r) hafter

/-! ## All loops -/

theorem turns_run (p : Char → Bool) (s : List Char) : (run p).Turns s := by
  cases s with
  | nil => exact .of_none rfl List.suffix_rfl rfl
  | cons c s =>
    by_cases hc : p c = true
    · have hnext : (run p).next? (c :: s) = some (run p, s) := by simp [next?, hc]
      exact .of_some hnext (.cons c s) (by simp [after, hc])
    · have hnext : (run p).next? (c :: s) = none := by simp [next?, hc]
      exact .of_none hnext List.suffix_rfl (by simp [after, finish, hc])

/-- Whatever stands at the front, a turn of a loop takes at least one character and leaves to the
reader what the loop left to it before; where there is no turn, the reader goes on. -/
theorem turns (l : Loop) (s : List Char) : l.Turns s := by
  have hnil : ∀ s : List Char, s <:+ s := fun _ => List.suffix_rfl
  cases l with
  | statements => exact turns_many statements (fun _ => rfl) (fun _ => rfl) skipFiller_suffix s
  | tableBody => exact turns_many tableBody (fun _ => rfl) (fun _ => rfl) skipFiller_suffix s
  | columnSettings =>
    exact turns_settings (fun _ => rfl) (fun _ => rfl) (fun _ => rfl) (fun _ => rfl) s
  | tableSettings =>
    exact turns_settings (fun _ => rfl) (fun _ => rfl) (fun _ => rfl) (fun _ => rfl) s
  | refBlock => exact turns_many refBlock (fun _ => rfl) (fun _ => rfl) skipFiller_suffix s
  | endpointParts =>
    exact turns_many endpointParts (fun _ => rfl) (fun _ => rfl) (endpointOfNames_suffix []) s
  | blockHeader => exact turns_skipMany blockHeader (fun _ => rfl) (fun _ => rfl) hnil s
  | blockBody depth => exact turns_blockBody depth s
  | unknownSetting => exact turns_skipMany unknownSetting (fun _ => rfl) (fun _ => rfl) hnil s
  | lineRest =>
    refine turns_skipMany lineRest (p := linePiece?_skips) (fun _ => rfl) (fun _ => rfl)
      (fun s => ?_) s
    show (match s with | '}' :: r => '}' :: r | r => skipLine r) <:+ s
    split
    · exact List.suffix_rfl
    · exact skipLine_suffix _
  | quoted q => exact turns_many (quoted q) (fun _ => rfl) (fun _ => rfl) hnil s
  | filler => exact turns_skipMany filler (fun _ => rfl) (fun _ => rfl) hnil s
  | typeParameter depth => exact turns_typeParameter depth s
  | run p => exact turns_run p s

end Loop

end Dbml
