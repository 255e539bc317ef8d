import Dbml.Diagnostic

/-!
# Cursors

A parser stands somewhere in its text. It counts the characters that it passes and, with them,
lines and columns; what it reports carries the line and the column counted so far.

A scanner keeps, beside the cursor, every cursor that it has left behind. Nothing is read from them:
they are there so that one can speak of all states of a parser, and not of the last one alone.

Results:
* `Leads.rest_suffix`: passing characters leaves a suffix of what was to be read;
* `Leads.pos_le`: no step goes back;
* `Started.located`: the line and the column that were counted are those of what is to be read.
-/
namespace Dbml

/-- How many characters were passed, the line and the column counted on the way, and what was
reported so far. -/
structure Cursor where
  pos : Nat
  line : Nat
  column : Nat
  diagnostics : List Diagnostic
  deriving DecidableEq, Repr

namespace Cursor

/-- Before the first character (`_reset`). -/
def start : Cursor := ⟨0, 1, 1, []⟩

/-- Passes one character (a turn of `_advance`). -/
def pass (c : Cursor) (ch : Char) : Cursor :=
  if ch == '\n' then { c with pos := c.pos + 1, line := c.line + 1, column := 1 }
  else { c with pos := c.pos + 1, column := c.column + 1 }

/-- Reports an error at the line and the column counted so far (`_error`). -/
def report (c : Cursor) (message : String) : Cursor :=
  { c with diagnostics := c.diagnostics ++ [{ line := c.line, column := c.column, message }] }

@[simp] theorem pass_pos (c : Cursor) (ch : Char) : (c.pass ch).pos = c.pos + 1 := by
  unfold pass; split <;> rfl

@[simp] theorem pass_diagnostics (c : Cursor) (ch : Char) :
    (c.pass ch).diagnostics = c.diagnostics := by
  unfold pass; split <;> rfl

@[simp] theorem report_pos (c : Cursor) (message : String) : (c.report message).pos = c.pos := rfl

/-- One character of the text is passed. -/
inductive Passes (text : Array Char) (c : Cursor) : Cursor → Prop
  | pass {ch : Char} (h : text[c.pos]? = some ch) : Passes text c (c.pass ch)

/-- One step of a parser: it passes a character of its text, or it reports. -/
inductive Steps (text : Array Char) (c : Cursor) : Cursor → Prop
  | pass {ch : Char} (h : text[c.pos]? = some ch) : Steps text c (c.pass ch)
  | report (message : String) : Steps text c (c.report message)

theorem Passes.steps {text : Array Char} {c d : Cursor} (h : Passes text c d) : Steps text c d := by
  cases h with
  | pass h => exact .pass h

theorem Steps.pos_le {text : Array Char} {c d : Cursor} (h : Steps text c d) : c.pos ≤ d.pos := by
  cases h with
  | pass => rw [pass_pos]; exact Nat.le_succ _
  | report => exact Nat.le_refl _

end Cursor

/-- A text, the cursor in it, and the cursors before, the last one first. -/
structure Scanner where
  text : Array Char
  now : Cursor
  past : List Cursor

namespace Scanner

/-- At the front of a text. -/
def start (text : Array Char) : Scanner := ⟨text, .start, []⟩

/-- The scanner with a new cursor. -/
def move (s : Scanner) (c : Cursor) : Scanner := { s with now := c, past := s.now :: s.past }

/-- What is still to be read. -/
def rest (s : Scanner) : List Char := s.text.toList.drop s.now.pos

/-- The states of a run, the last one first. -/
def history (s : Scanner) : List Cursor := s.now :: s.past

/-- Steps of one kind lead from a scanner to another one. -/
inductive Leads (Step : Array Char → Cursor → Cursor → Prop) (s : Scanner) : Scanner → Prop
  | refl : Leads Step s s
  | step {t : Scanner} {c : Cursor} (h : Leads Step s t) (hc : Step t.text t.now c) :
    Leads Step s (t.move c)

namespace Leads

variable {Step : Array Char → Cursor → Cursor → Prop} {s t u : Scanner}

theorem trans (h : Leads Step s t) (h' : Leads Step t u) : Leads Step s u := by
  induction h' with
  | refl => exact h
  | step _ hc ih => exact .step ih hc

theorem mono {Other : Array Char → Cursor → Cursor → Prop} (h : Leads Step s t)
    (hstep : ∀ text c d, Step text c d → Other text c d) : Leads Other s t := by
  induction h with
  | refl => exact .refl
  | step _ hc ih => exact .step ih (hstep _ _ _ hc)

theorem text_eq (h : Leads Step s t) : t.text = s.text := by
  induction h with
  | refl => rfl
  | step _ _ ih => exact ih

/-- No step goes back. -/
theorem pos_le (h : Leads Cursor.Steps s t) : s.now.pos ≤ t.now.pos := by
  induction h with
  | refl => exact Nat.le_refl _
  | step _ hc ih => exact Nat.le_trans ih hc.pos_le

theorem diagnostics_eq (h : Leads Cursor.Passes s t) : t.now.diagnostics = s.now.diagnostics := by
  induction h with
  | refl => rfl
  | step _ hc ih =>
    cases hc with
    | pass => exact (Cursor.pass_diagnostics _ _).trans ih

end Leads

theorem drop_eq_cons {s : Scanner} {ch : Char} (h : s.text[s.now.pos]? = some ch) :
    s.rest = ch :: s.text.toList.drop (s.now.pos + 1) := by
  have hlist : s.text.toList[s.now.pos]? = some ch := by rw [Array.getElem?_toList]; exact h
  obtain ⟨hlt, hget⟩ := List.getElem?_eq_some_iff.1 hlist
  rw [rest, List.drop_eq_getElem_cons hlt, hget]

/-- Passing characters leaves a suffix of what was to be read, shorter by as many as were passed. -/
theorem Leads.rest_eq_drop {s t : Scanner} (h : Leads Cursor.Passes s t) :
    ∃ n, n ≤ s.rest.length ∧ t.now.pos = s.now.pos + n ∧ t.rest = s.rest.drop n := by
  induction h with
  | refl => exact ⟨0, Nat.zero_le _, rfl, rfl⟩
  | @step t c h hc ih =>
    obtain ⟨n, hn, hpos, hrest⟩ := ih
    cases hc with
    | @pass ch hch =>
      have hcons := drop_eq_cons hch
      have hpass : (t.move (t.now.pass ch)).rest = t.text.toList.drop (t.now.pos + 1) := by
        rw [rest, move, Cursor.pass_pos]
      refine ⟨n + 1, ?_, ?_, ?_⟩
      · have hlen := congrArg List.length (hrest.symm.trans hcons)
        rw [List.length_drop, List.length_cons] at hlen
        omega
      · rw [move, Cursor.pass_pos, hpos, Nat.add_assoc]
      · rw [hpass, ← List.tail_drop, ← List.tail_drop, ← hrest]; rfl

theorem Leads.rest_suffix {s t : Scanner} (h : Leads Cursor.Passes s t) : t.rest <:+ s.rest := by
  obtain ⟨n, -, -, hrest⟩ := h.rest_eq_drop
  exact hrest ▸ List.drop_suffix n s.rest

/-! ## Places -/

/-- The scanner was at the front of its text and has made steps since. -/
def Started (s : Scanner) : Prop := (start s.text).Leads Cursor.Steps s

theorem start_started (text : Array Char) : (start text).Started := .refl

theorem Started.leads {s t : Scanner} (hs : s.Started) (h : s.Leads Cursor.Steps t) :
    t.Started := by
  unfold Started; rw [h.text_eq]; exact hs.trans h

end Scanner

/-- The place in a text up to which a cursor has counted. -/
structure Cursor.At (text : List Char) (c : Cursor) : Prop where
  pos_le : c.pos ≤ text.length
  location : Location.after (text.take c.pos) = ⟨c.line, c.column⟩

namespace Cursor

theorem at_start (text : List Char) : start.At text := ⟨Nat.zero_le _, rfl⟩

/-- Every step keeps count. -/
theorem Steps.at {text : Array Char} {c d : Cursor} (h : Steps text c d)
    (hc : c.At text.toList) : d.At text.toList := by
  cases h with
  | report message => exact ⟨hc.pos_le, hc.location⟩
  | @pass ch h =>
    rw [← Array.getElem?_toList] at h
    obtain ⟨hlt, hget⟩ := List.getElem?_eq_some_iff.1 h
    refine ⟨by rw [pass_pos]; exact hlt, ?_⟩
    rw [pass_pos, List.take_succ_eq_append_getElem hlt, hget, Location.after_concat, hc.location,
      Location.next, Cursor.pass]
    split <;> rfl

end Cursor

namespace Scanner

theorem at_of_leads {text : Array Char} {s : Scanner} (h : (start text).Leads Cursor.Steps s) :
    s.now.At text.toList := by
  induction h with
  | refl => exact Cursor.at_start _
  | @step t c ht hc ih =>
    have htext : t.text = text := ht.text_eq
    exact (htext ▸ hc).at ih

theorem Started.at {s : Scanner} (h : s.Started) : s.now.At s.text.toList := at_of_leads h

/-- The line and the column that were counted are those of what is to be read. -/
theorem Started.located {s : Scanner} (h : s.Started) :
    Location.locate s.text.toList s.rest = ⟨s.now.line, s.now.column⟩ := by
  have hat := h.at
  have hpos := hat.pos_le
  rw [← hat.location, Location.locate, rest, List.length_drop, Nat.sub_sub_self hpos]

end Scanner

end Dbml
