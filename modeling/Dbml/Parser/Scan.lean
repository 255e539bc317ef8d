import Dbml.Cursor

/-!
# Scans

A scan is a routine of the parser that passes characters of the text and reports nothing. It carries
the proof that it does no more, so whatever is built from scans does no more either.

A loop takes turns for as long as they ask for another one. It comes with a proof that a turn that
asks for another one has passed a character.

What a scan reads depends on the text that is left alone; where it stands in the text does not
matter.

Results:
* `Scan.rest_suffix`: a scan leaves a suffix of the text that was to be read;
* `Scan.reads_bind`, `Scan.reads_advance`, `Scan.reads_passed`: what is read one behind the other;
* `Scan.reads_loop`: what every turn keeps, a loop gives.
-/
namespace Dbml

/-- A routine that passes characters: its result, and where it ends. -/
structure Scan (α : Type) where
  run : Scanner → α × Scanner
  passes : ∀ s : Scanner, s.Leads Cursor.Passes (run s).2

namespace Scan

variable {α β : Type}

instance : Monad Scan where
  pure a := ⟨fun s => (a, s), fun _ => .refl⟩
  bind m f := ⟨fun s => (f (m.run s).1).run (m.run s).2,
    fun s => (m.passes s).trans ((f (m.run s).1).passes (m.run s).2)⟩

@[simp] theorem text_run (m : Scan α) (s : Scanner) : (m.run s).2.text = s.text :=
  (m.passes s).text_eq

@[simp] theorem diagnostics_run (m : Scan α) (s : Scanner) :
    (m.run s).2.now.diagnostics = s.now.diagnostics := (m.passes s).diagnostics_eq

/-- The result of a scan and the text that it leaves. -/
def reads (m : Scan α) (s : Scanner) : α × List Char := ((m.run s).1, (m.run s).2.rest)

@[simp] theorem fst_run (m : Scan α) (s : Scanner) : (m.run s).1 = (m.reads s).1 := rfl

@[simp] theorem rest_run (m : Scan α) (s : Scanner) : (m.run s).2.rest = (m.reads s).2 := rfl

@[simp] theorem reads_pure (a : α) (s : Scanner) : (pure a : Scan α).reads s = (a, s.rest) := rfl

@[simp] theorem reads_bind (m : Scan α) (f : α → Scan β) (s : Scanner) :
    (m >>= f).reads s = (f (m.reads s).1).reads (m.run s).2 := rfl

@[simp] theorem reads_map (f : α → β) (m : Scan α) (s : Scanner) :
    (f <$> m).reads s = (f (m.reads s).1, (m.reads s).2) := rfl

@[simp] theorem reads_ite (c : Prop) [Decidable c] (m n : Scan α) (s : Scanner) :
    (if c then m else n).reads s = if c then m.reads s else n.reads s := by split <;> rfl

/-- A scan leaves a suffix of the text that was to be read. -/
theorem rest_suffix (m : Scan α) (s : Scanner) : (m.reads s).2 <:+ s.rest :=
  (m.passes s).rest_suffix

/-! ## What a scan does first -/

/-- Looks at the text without passing anything. -/
def look (f : Scanner → α) : Scan α := ⟨fun s => (f s, s), fun _ => .refl⟩

/-- The character some places on, if the text goes on so far (`_peek`). -/
def peekAt (offset : Nat) : Scan (Option Char) := look fun s => s.text[s.now.pos + offset]?

/-- The next character, if there is one (`_peek`). -/
def peek : Scan (Option Char) := peekAt 0

/-- Whether there is a next character, and it is of a class. -/
def nextIs (p : Char → Bool) : Scan Bool := Option.any p <$> peek

/-- Whether the text is over (`_at_end`). -/
def atEnd : Scan Bool := look fun s => decide (s.text.size ≤ s.now.pos)

/-- Passes one character; at the end of the text there is none to pass. -/
def advanceOne : Scan Unit where
  run s := match s.text[s.now.pos]? with
    | some ch => ((), s.move (s.now.pass ch))
    | none => ((), s)
  passes s := by
    split
    · rename_i ch h; exact .step .refl (.pass h)
    · exact .refl

/-- Passes so many characters, as far as there are any (`_advance`). -/
def advance : Nat → Scan Unit
  | 0 => pure ()
  | n + 1 => do
    advanceOne
    advance n

theorem getElem?_eq_rest (s : Scanner) (n : Nat) : s.text[s.now.pos + n]? = s.rest[n]? := by
  rw [Scanner.rest, List.getElem?_drop, Array.getElem?_toList]

@[simp] theorem reads_look (f : Scanner → α) (s : Scanner) : (look f).reads s = (f s, s.rest) := rfl

@[simp] theorem reads_peekAt (n : Nat) (s : Scanner) :
    (peekAt n).reads s = (s.rest[n]?, s.rest) := by
  rw [peekAt, reads_look, getElem?_eq_rest]

@[simp] theorem reads_peek (s : Scanner) : peek.reads s = (s.rest.head?, s.rest) := by
  rw [peek, reads_peekAt, List.head?_eq_getElem?]

@[simp] theorem reads_nextIs (p : Char → Bool) (s : Scanner) :
    (nextIs p).reads s = (s.rest.head?.any p, s.rest) := by
  rw [nextIs, reads_map, reads_peek]

@[simp] theorem reads_atEnd (s : Scanner) : atEnd.reads s = (s.rest.isEmpty, s.rest) := by
  have hiff : s.text.size ≤ s.now.pos ↔ s.rest = [] := by
    rw [Scanner.rest, List.drop_eq_nil_iff, Array.length_toList]
  rw [atEnd, reads_look]
  congr 1
  rw [Bool.eq_iff_iff, decide_eq_true_iff, List.isEmpty_iff, hiff]

@[simp] theorem reads_advanceOne (s : Scanner) : advanceOne.reads s = ((), s.rest.tail) := by
  have hget := getElem?_eq_rest s 0
  rw [Nat.add_zero] at hget
  cases h : s.text[s.now.pos]? with
  | some ch =>
    rw [Scanner.drop_eq_cons h, List.tail_cons]
    simp only [reads, advanceOne, h, Scanner.rest, Scanner.move, Cursor.pass_pos]
  | none =>
    rw [h, eq_comm, List.getElem?_eq_none_iff, Nat.le_zero, List.length_eq_zero_iff] at hget
    simp only [reads, advanceOne, h, hget, List.tail_nil]

@[simp] theorem reads_advance (n : Nat) (s : Scanner) :
    (advance n).reads s = ((), s.rest.drop n) := by
  induction n generalizing s with
  | zero => rfl
  | succ n ih => rw [advance, reads_bind, ih, rest_run, reads_advanceOne, List.drop_tail]

/-! ## Parts of the text -/

/-- Passes what a scan passes, and gives that. -/
def passed (m : Scan α) : Scan (List Char) where
  run s := ((s.text.extract s.now.pos (m.run s).2.now.pos).toList, (m.run s).2)
  passes := m.passes

theorem reads_passed (m : Scan α) (s : Scanner) :
    (passed m).reads s = (s.rest.take (s.rest.length - (m.reads s).2.length), (m.reads s).2) := by
  obtain ⟨n, hn, hpos, hrest⟩ := (m.passes s).rest_eq_drop
  have hcount : s.rest.length - (m.reads s).2.length = n := by
    rw [← rest_run, hrest, List.length_drop]; omega
  have hpart : (s.text.extract s.now.pos (m.run s).2.now.pos).toList = s.rest.take n := by
    rw [hpos, Array.toList_extract, List.extract_eq_take_drop, Nat.add_sub_cancel_left,
      Scanner.rest]
  exact Prod.ext (hpart.trans (by rw [hcount])) rfl

/-! ## Loops -/

/-- A turn that asks for another one has passed a character. -/
def Advances (turn : α → Scan (ForInStep α)) : Prop :=
  ∀ ⦃a b : α⦄ ⦃s : Scanner⦄, ((turn a).reads s).1 = .yield b →
    ((turn a).reads s).2.length < s.rest.length

/-- Takes turns from a scanner on. -/
def runLoop (turn : α → Scan (ForInStep α)) (h : Advances turn) (a : α) (s : Scanner) :
    α × Scanner :=
  match _hturn : ((turn a).run s).1 with
  | .yield b => runLoop turn h b ((turn a).run s).2
  | .done b => (b, ((turn a).run s).2)
termination_by s.rest.length
decreasing_by exact h _hturn

theorem runLoop_of_yield {turn : α → Scan (ForInStep α)} {h : Advances turn} {a b : α}
    {s : Scanner} (hturn : ((turn a).run s).1 = .yield b) :
    runLoop turn h a s = runLoop turn h b ((turn a).run s).2 := by
  rw [runLoop]; split <;> simp_all

theorem runLoop_of_done {turn : α → Scan (ForInStep α)} {h : Advances turn} {a b : α}
    {s : Scanner} (hturn : ((turn a).run s).1 = .done b) :
    runLoop turn h a s = (b, ((turn a).run s).2) := by
  rw [runLoop]; split <;> simp_all

/-- What holds where a turn ends the loop, and is kept by a turn before it, holds of a loop. -/
theorem runLoop_induction {turn : α → Scan (ForInStep α)} {h : Advances turn}
    {motive : α → Scanner → α × Scanner → Prop}
    (done : ∀ a s b, ((turn a).run s).1 = .done b → motive a s (b, ((turn a).run s).2))
    (yield : ∀ a s b p, ((turn a).run s).1 = .yield b → motive b ((turn a).run s).2 p →
      motive a s p) (a : α) (s : Scanner) : motive a s (runLoop turn h a s) := by
  induction hn : s.rest.length using Nat.strongRecOn generalizing a s with
  | _ n ih =>
    cases hturn : ((turn a).run s).1 with
    | done b => rw [runLoop_of_done hturn]; exact done a s b hturn
    | yield b =>
      rw [runLoop_of_yield hturn]
      exact yield a s b _ hturn (ih _ (hn ▸ h hturn) b _ rfl)

/-- Takes turns for as long as they ask for another one. -/
def loop (turn : α → Scan (ForInStep α)) (h : Advances turn) (a : α) : Scan α where
  run := runLoop turn h a
  passes s := runLoop_induction (motive := fun _ s p => s.Leads Cursor.Passes p.2)
    (fun a s _ _ => (turn a).passes s) (fun a s _ _ _ ih => ((turn a).passes s).trans ih) a s

section Turns

variable {turn : α → Scan (ForInStep α)} {next : α → List Char → ForInStep α × List Char}
  (hturn : ∀ a s, (turn a).reads s = next a s.rest)
include hturn

theorem advances_of_reads
    (h : ∀ a b t, (next a t).1 = .yield b → (next a t).2.length < t.length) : Advances turn := by
  intro a b s hs
  rw [hturn] at hs ⊢
  exact h a b s.rest hs

/-- What holds where a turn ends the loop, and is kept by a turn before it, holds of a loop. -/
theorem loop_induction {h : Advances turn} {motive : α → List Char → α × List Char → Prop}
    (done : ∀ a t b r, next a t = (.done b, r) → motive a t (b, r))
    (yield : ∀ a t b r p, next a t = (.yield b, r) → motive b r p → motive a t p)
    (a : α) (s : Scanner) : motive a s.rest ((loop turn h a).reads s) := by
  refine @runLoop_induction _ turn h (fun a s p => motive a s.rest (p.1, p.2.rest))
    (fun a s b hs => ?_) (fun a s b p hs ih => ?_) a s
  · exact done a s.rest b _ ((hturn a s).symm.trans (Prod.ext hs rfl))
  · exact yield a s.rest b _ _ ((hturn a s).symm.trans (Prod.ext hs rfl)) ih

/-- What every turn keeps, a loop gives: `read` says what is read from a text on. -/
theorem reads_loop {h : Advances turn} {read : α → List Char → α × List Char}
    (hread : ∀ a t, read a t = match next a t with
      | (.yield b, r) => read b r
      | (.done b, r) => (b, r)) (a : α) (s : Scanner) :
    (loop turn h a).reads s = read a s.rest := by
  refine loop_induction hturn (motive := fun a t p => p = read a t) (fun a t b r hn => ?_)
    (fun a t b r p hn ih => ?_) a s
  · rw [hread, hn]
  · rw [hread, hn]; exact ih

/-- What every turn leaves, a loop leaves: `rest` says what is left from a text on. -/
theorem rest_loop {h : Advances turn} {rest : α → List Char → List Char}
    (hrest : ∀ a t, rest a t = match next a t with
      | (.yield b, r) => rest b r
      | (.done _, r) => r) (a : α) (s : Scanner) :
    ((loop turn h a).reads s).2 = rest a s.rest := by
  refine loop_induction hturn (motive := fun a t p => p.2 = rest a t) (fun a t b r hn => ?_)
    (fun a t b r p hn ih => ?_) a s
  · rw [hrest, hn]
  · rw [hrest, hn]; exact ih

end Turns

end Scan

end Dbml
