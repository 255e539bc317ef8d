import Dbml.Proofs.Alike
import Dbml.Proofs.Composition
import Dbml.Proofs.Renaming

/-!
# Lines of a table

The lines of a table are read one by one, and none knows of the others. However broken a line is,
what is wrong with it ends with it: names and types, settings, values and references that are never
closed all stop in front of the newline, and what is left of the line is dropped.

Only a token in single quotes, a block comment and a block of notes or indexes may lead into another
line, and a closing brace out of the table.

Results:
* `line?_agree`: a line is read in the same way whatever stands behind it, or it is overlooked;
* `many_line?_lines`: the body of a table is read as its lines are read alone;
* `parse_columnLines`: so are its columns and its diagnostics.
-/
namespace Dbml

open Text Outline Canonical

/-! ## Lines that nothing leads out of -/

/-- A line that is read by itself. -/
structure PlainLine (line : List Char) : Prop where
  no_newline : '\n' ∉ line
  no_single : '\'' ∉ line
  no_brace : '}' ∉ line
  no_comment : ¬['/', '*'] <:+: line
  no_block : ¬OpensBlock (skipInline line)

instance (s : List Char) : Decidable (OpensBlock s) :=
  inferInstanceAs (Decidable ((_ ∨ _) ∧ _))

instance (line : List Char) : Decidable (PlainLine line) :=
  decidable_of_iff ('\n' ∉ line ∧ '\'' ∉ line ∧ '}' ∉ line ∧ ¬['/', '*'] <:+: line ∧
      ¬OpensBlock (skipInline line))
    ⟨fun h => ⟨h.1, h.2.1, h.2.2.1, h.2.2.2.1, h.2.2.2.2⟩,
      fun h => ⟨h.no_newline, h.no_single, h.no_brace, h.no_comment, h.no_block⟩⟩

/-- Two texts that hold the same characters up to the end of their line, with `a` behind the one and
`b` behind the other. -/
def SameLine (a b : List Char) : List Char → List Char → Prop :=
  LineAlike False fun r r' => r = a ∧ r' = b

theorem sameLine_append {line : List Char} (hn : '\n' ∉ line) (hs : '\'' ∉ line) (hb : '}' ∉ line)
    (hc : ¬['/', '*'] <:+: line) (a b : List Char) :
    SameLine a b (line ++ '\n' :: a) (line ++ '\n' :: b) := by
  induction line with
  | nil => exact .newline ⟨rfl, rfl⟩
  | cons c line ih =>
    simp only [List.mem_cons, not_or] at hn hs hb
    refine .char ⟨Ne.symm hn.1, Ne.symm hs.1, fun h => h.elim, fun h => h.elim,
      fun h => h.elim, fun _ => Ne.symm hb.1, fun _ hslash => ?_⟩
      (ih hn.2 hs.2 hb.2 fun h => hc (h.trans (List.suffix_cons c line).isInfix))
    cases line with
    | nil => simp
    | cons d line =>
      intro hd
      obtain rfl : d = '*' := by simpa using hd
      exact hc (hslash ▸ (List.prefix_append ['/', '*'] line).isInfix)

namespace SameLine

variable {a b s s' : List Char}

/-- Both texts are in the same place of the line. -/
theorem split (hb : b ≠ []) (h : SameLine a b s s') :
    ∃ w, '\n' ∉ w ∧ s = w ++ '\n' :: a ∧ s' = w ++ '\n' :: b := by
  induction h with
  | ended h => exact absurd h.2.symm hb
  | newline h => exact ⟨[], List.not_mem_nil, by rw [h.1]; rfl, by rw [h.2]; rfl⟩
  | carriage hcr => exact hcr.elim
  | @char c r r' hc h ih =>
    obtain ⟨w, hw, rfl, rfl⟩ := ih
    refine ⟨c :: w, ?_, rfl, rfl⟩
    simp only [List.mem_cons, not_or]
    exact ⟨Ne.symm hc.ne_newline, hw⟩

end SameLine

/-- The same place of the line with another text behind it. -/
def behindLine (a : List Char) (s : List Char) : List Char := s.takeWhile (· != '\n') ++ '\n' :: a

theorem behindLine_append {w : List Char} (hw : '\n' ∉ w) (a b : List Char) :
    behindLine a (w ++ '\n' :: b) = w ++ '\n' :: a := by
  have hne : ∀ c ∈ w, (c != '\n') = true := fun c hc => by
    simpa using fun he : c = '\n' => hw (he ▸ hc)
  rw [behindLine, List.takeWhile_append_of_pos hne]
  simp

theorem SameLine.behindLine {a b s s' : List Char} (hb : b ≠ []) (h : SameLine a b s s') :
    s = behindLine a s' := by
  obtain ⟨w, hw, rfl, rfl⟩ := h.split hb
  rw [behindLine_append hw]

/-! ## Reading one line -/

namespace Text

theorem linePiece?_cons {c : Char} {r : List Char} (hn : c ≠ '\n') (hb : c ≠ '}')
    (hc : c = '/' → r.head? ≠ some '*') :
    linePiece? (c :: r) = if c = '#' ∨ c = '/' ∧ r.head? = some '/' then none else some r := by
  have hslash : r.head? = some '/' ↔ ∃ t, r = '/' :: t := by cases r <;> simp
  unfold linePiece?
  split <;> simp_all

/-- The rest of a line that nothing leads out of is dropped up to its newline. -/
theorem dropLine_behind {Behind : List Char → List Char → Prop} {s s' : List Char}
    (h : LineAlike False Behind s s') : Behind (dropLine s) (dropLine s') := by
  induction h with
  | ended h =>
    have hnil : dropLine [] = [] := by rw [dropLine, skipMany_of_none rfl]; rfl
    rw [hnil]
    exact h
  | newline h => rw [dropLine_newline, dropLine_newline]; exact h
  | carriage hcr => exact hcr.elim
  | @char c r r' hc h ih =>
    have hhead : r.head? = some '/' ↔ r'.head? = some '/' := by
      cases h with
      | carriage hcr => exact hcr.elim
      | _ => simp
    have hnb := hc.no_brace not_false
    have hdrop : ∀ t, (c = '/' → t.head? ≠ some '*') → dropLine (c :: t) =
        if c = '#' ∨ c = '/' ∧ t.head? = some '/' then skipLine t else dropLine t := by
      intro t ht
      have hpiece := linePiece?_cons hc.ne_newline hnb ht
      split at hpiece
      · rename_i hend
        rw [if_pos hend, dropLine, skipMany_of_none hpiece]
        split
        · rename_i e; exact absurd (List.cons.inj e).1 hnb
        · simp [skipLine, hc.ne_newline]
      · rename_i hend
        rw [if_neg hend, dropLine, skipMany_of_some hpiece, dropLine]
    have hcomment : c = '/' → r'.head? ≠ some '*' := by
      have hno := hc.no_comment not_false
      cases h with
      | carriage hcr => exact hcr.elim
      | newline => simp
      | ended => simp
      | char => simpa using hno
    rw [hdrop r (hc.no_comment not_false), hdrop r' hcomment]
    simp only [hhead]
    split
    · exact skipLine_behind h
    · exact ih

/-- No repetition on one line goes on behind it. -/
theorem dropWhile_append_newline {p : Char → Bool} (hp : p '\n' = false) (w s : List Char) :
    (w ++ '\n' :: s).dropWhile p = w.dropWhile p ++ '\n' :: s :=
  (span_append_of_stopsAt (stopsAt_cons.2 hp) w).2

theorem skipInline_append_newline (w s : List Char) :
    skipInline (w ++ '\n' :: s) = skipInline w ++ '\n' :: s :=
  dropWhile_append_newline (by decide) w s

theorem skipFiller_skipInline (s : List Char) : skipFiller (skipInline s) = skipFiller s := by
  have hall : ∀ c ∈ s.takeWhile isInlineSpace, ∀ r, fillerPiece? (c :: r) = some r := by
    intro c hc r
    rw [fillerPiece?, List.mem_takeWhile_imp hc]
    rfl
  conv => rhs; rw [← List.takeWhile_append_dropWhile (p := isInlineSpace) (l := s)]
  exact (skipMany_append hall _).symm

end Text

theorem opensBlock_append_newline (w s : List Char) :
    OpensBlock (w ++ '\n' :: s) ↔ OpensBlock w := by
  have hhead : ∀ t : List Char, (t ++ '\n' :: s).head? = some '{' ↔ t.head? = some '{' := by
    intro t; cases t <;> simp
  rw [OpensBlock, OpensBlock, readWord_append_gap (gapFront_newline s)]
  simp only [skipInline_append_newline, hhead]

/-- What is wrong with a line is noticed where reading its column ends. -/
theorem readLine_fault {s : List Char} {x : Fault} (h : (readLine s).1 = .fault x) :
    (scanColumn s).2 = x.rest := by
  have hscan : (scanColumn s).1 = .error x → (scanColumn s).2 = x.rest := by
    unfold scanColumn
    dsimp only
    split
    · rintro ⟨⟩; rfl
    · split
      · rintro ⟨⟩; rfl
      · rintro ⟨⟩
  have hcolumn : (columnLine s).1 = .fault x → (scanColumn s).1 = .error x := by
    rw [columnLine_eq]
    cases (scanColumn s).1 with
    | ok c => rintro ⟨⟩
    | error y => rintro ⟨⟩; rfl
  unfold readLine at h
  split at h
  · cases h
  · dsimp only at h
    cases hw : wordLine? (lower (readWord s).1) s (skipInline (readWord s).2) with
    | none => rw [hw, Option.getD_none] at h; exact hscan (hcolumn h)
    | some p =>
      obtain ⟨l, r⟩ := p
      rw [hw, Option.getD_some] at h
      subst h
      exact absurd (wordLine?_events hw) (List.cons_ne_nil _ _)

section OneLine

variable {a b : List Char} {c : Char} {r r' : List Char} (hc : LineChar False c r)
  (hr : SameLine a b r r')
include hc hr

/-- A comment at the front ends with its line. -/
theorem fillerPiece?_behind (hspace : isInlineSpace c = false) :
    Option.Rel (fun t t' => t = a ∧ t' = b) (fillerPiece? (c :: r)) (fillerPiece? (c :: r')) := by
  have hcomment : Option.Rel (fun t t' => t = a ∧ t' = b) (comment? (c :: r))
      (comment? (c :: r')) :=
    comment?_rel (.char hc hr) (fun _ _ h => skipLine_behind h) fun t t' he _ => by
      obtain ⟨rfl, rfl⟩ := List.cons.inj he
      exact absurd rfl (hc.no_comment not_false rfl)
  have hpiece : ∀ t, fillerPiece? (c :: t) = comment? (c :: t) := by
    intro t
    simp [fillerPiece?, hspace, hc.ne_newline]
  rwa [← hpiece, ← hpiece] at hcomment

/-- What is left of a line is read in the same way whatever stands behind it, and nothing else is.
What is wrong with it is noticed on it. -/
theorem readLine_behind (hb : b ≠ []) (hblock : ¬OpensBlock (c :: r)) :
    readLine (c :: r) = ((readLine (c :: r')).1.moved (behindLine a), a) ∧
      (readLine (c :: r')).2 = b ∧
      ∀ x, (readLine (c :: r')).1 = .fault x → ∃ w, '\n' ∉ w ∧ x.rest = w ++ '\n' :: b := by
  have hmoved : ∀ t t', SameLine a b t t' → t = behindLine a t' := fun _ _ h => h.behindLine hb
  have hline : Agree (fun t t' => t = a ∧ t' = b) (Line.moved (behindLine a))
      (readLine (c :: r)) (readLine (c :: r')) :=
    readLine_agree (fun _ _ h => dropLine_behind h) hmoved hc hr (fun _ _ h => skipLine_behind h)
      fun h => absurd h hblock
  refine ⟨Prod.ext hline.value hline.rest.1, hline.rest.2, fun x hx => ?_⟩
  obtain ⟨w, hw, -, hrest⟩ := SameLine.split hb (scanColumn_agree (.char hc hr) hmoved).rest
  exact ⟨w, hw, (readLine_fault hx).symm.trans hrest⟩

end OneLine

/-- A line is overlooked, or it is read in the same way whatever stands behind it, and nothing else
is. What is wrong with it is noticed on it. -/
theorem line?_agree {line : List Char} (h : PlainLine line) (a : List Char) {b : List Char}
    (hb : b ≠ []) :
    (skipFiller (line ++ '\n' :: a) = skipFiller a ∧
        skipFiller (line ++ '\n' :: b) = skipFiller b) ∨
      ∃ l, line? (line ++ '\n' :: a) = some (l.moved (behindLine a), a) ∧
        line? (line ++ '\n' :: b) = some (l, b) ∧
        ∀ x, l = .fault x → ∃ w, '\n' ∉ w ∧ x.rest = w ++ '\n' :: b := by
  have hsame := sameLine_append h.no_newline h.no_single h.no_brace h.no_comment a b
  have hblock : ¬OpensBlock (skipInline (line ++ '\n' :: a)) := by
    rw [skipInline_append_newline, opensBlock_append_newline]; exact h.no_block
  have hskip : SameLine a b (skipInline (line ++ '\n' :: a)) (skipInline (line ++ '\n' :: b)) :=
    skipInline_alike hsame
  rw [← skipFiller_skipInline, ← skipFiller_skipInline (line ++ '\n' :: b),
    ← line?_congr (skipFiller_skipInline (line ++ '\n' :: a)),
    ← line?_congr (skipFiller_skipInline (line ++ '\n' :: b))]
  have hstop := stopsAt_dropWhile isInlineSpace (line ++ '\n' :: a)
  rw [← skipInline] at hstop
  generalize skipInline (line ++ '\n' :: a) = s at hskip hblock hstop ⊢
  generalize skipInline (line ++ '\n' :: b) = s' at hskip ⊢
  cases hskip with
  | ended h => exact absurd h.2.symm hb
  | newline h =>
    rw [h.1, h.2]
    exact .inl ⟨skipFiller_newline a, skipFiller_newline b⟩
  | carriage hcr => exact hcr.elim
  | @char c r r' hc hr =>
    have hpiece := fillerPiece?_behind hc hr (stopsAt_cons.1 hstop)
    generalize hp : fillerPiece? (c :: r) = o at hpiece
    generalize hp' : fillerPiece? (c :: r') = o' at hpiece
    cases hpiece with
    | some h =>
      obtain ⟨rfl, rfl⟩ := h
      exact .inl ⟨skipMany_of_some hp, skipMany_of_some hp'⟩
    | none =>
      obtain ⟨hread, hrest, hfault⟩ := readLine_behind hc hr hb hblock
      have hbrace := hc.no_brace not_false
      refine .inr ⟨(readLine (c :: r')).1, ?_, ?_, hfault⟩
      · rw [line?_of_skipFiller (skipMany_of_none hp) hbrace, hread]
      · rw [line?_of_skipFiller (skipMany_of_none hp') hbrace, ← hrest]

/-! ## Reading the body -/

/-- The line that is read alone in a table, if it is not overlooked. -/
def aloneLine (line : List Char) : Option Line := (line? (line ++ ['\n', '}'])).map Prod.fst

/-- The body of a table with the given lines. -/
def bodyText (lines : List String) : List Char := lines.flatMap (·.toList ++ ['\n']) ++ ['}']

/-- The lines as they are read alone, each in its place among the others. -/
def linesAt : List String → List Line
  | [] => []
  | line :: lines =>
    (aloneLine line.toList).toList.map (Line.moved (behindLine (bodyText lines))) ++ linesAt lines

theorem bodyText_cons (line : String) (lines : List String) :
    bodyText (line :: lines) = line.toList ++ '\n' :: bodyText lines := by simp [bodyText]

/-- The body of a table is read as its lines are read alone. -/
theorem many_line?_lines {lines : List String} (h : ∀ line ∈ lines, PlainLine line.toList) :
    (many line? line?_progresses (bodyText lines)).1 = linesAt lines ∧
      skipFiller (many line? line?_progresses (bodyText lines)).2 = ['}'] := by
  have hclose : skipFiller ['}'] = ['}'] := skipFiller_of_stopsAt (stopsAt_cons.2 (by decide))
  induction lines with
  | nil =>
    rw [show bodyText [] = ['}'] from rfl, many_of_none (line?_closing [])]
    exact ⟨rfl, hclose⟩
  | cons line lines ih =>
    obtain ⟨hlines, hrest⟩ := ih fun l hl => h l (List.mem_cons_of_mem line hl)
    rw [bodyText_cons, linesAt]
    rcases line?_agree (h line List.mem_cons_self) (bodyText lines) (b := ['}']) (by decide) with
      ⟨hskip, halone⟩ | ⟨l, hl, halone, -⟩
    · have hnone : aloneLine line.toList = none := by
        rw [aloneLine, line?_congr halone, line?_closing]; rfl
      rw [hnone, (many_line?_congr hskip).1, (many_line?_congr hskip).2]
      exact ⟨hlines, hrest⟩
    · rw [many_of_some hl, aloneLine, halone]
      exact ⟨congrArg (l.moved (behindLine (bodyText lines)) :: ·) hlines, hrest⟩

/-- A table with lines that are read by themselves. -/
def tableOfLines (lines : List String) : String :=
  Canonical.lines ("Table t \x7b" :: lines ++ ["\x7d"])

def draftOfLines (lines : List String) : TableDraft :=
  ⟨⟨"t", none, []⟩, '\n' :: bodyText lines, linesAt lines⟩

theorem toList_tableOfLines (lines : List String) :
    (tableOfLines lines).toList = "Table t \x7b\n".toList ++ bodyText lines := by
  rw [tableOfLines, toList_lines_concat]
  simp [bodyText]

/-- A document of one table is read from the lines of its body. -/
theorem read_oneTable {name : String} (hn : PlainName name) {body r : List Char} {ls : List Line}
    (hlines : many line? line?_progresses body = (ls, r)) (hclose : skipFiller r = ['}']) :
    Outline.read ("Table ".toList ++ ((identifier name).toList ++ ' ' :: '{' :: body)) =
      [.table (.table ⟨⟨name, none, []⟩, body, ls⟩)] := by
  have hheader : readHeader (' ' :: ((identifier name).toList ++ ' ' :: '{' :: body)) =
      .ok (⟨name, none, []⟩, body) :=
    readHeader_tableHeader (t := { id := "", name := name }) hn (fun _ h => by cases h) body
  have hkey : keyword? "Table" ("Table ".toList ++ ((identifier name).toList ++ ' ' :: '{' :: body)) =
      some (' ' :: ((identifier name).toList ++ ' ' :: '{' :: body)) := rfl
  have hskip : skipFiller ("Table ".toList ++ ((identifier name).toList ++ ' ' :: '{' :: body)) =
      'T' :: ("able ".toList ++ ((identifier name).toList ++ ' ' :: '{' :: body)) :=
    skipFiller_of_stopsAt (stopsAt_cons.2 (by decide))
  have hitem : item? ("Table ".toList ++ ((identifier name).toList ++ ' ' :: '{' :: body)) =
      some (.table (.table ⟨⟨name, none, []⟩, body, ls⟩), []) := by
    rw [item?_of_skipFiller hskip]
    show some (readItem ("Table ".toList ++ ((identifier name).toList ++ ' ' :: '{' :: body))) = _
    simp only [readItem, hkey, readTable, hheader, readBody, hlines, hclose]
    rfl
  rw [read_of_item? hitem, read_nil]

theorem read_tableOfLines {lines : List String} (h : ∀ line ∈ lines, PlainLine line.toList) :
    Outline.read (tableOfLines lines).toList = [.table (.table (draftOfLines lines))] := by
  have hlines := many_line?_lines h
  have hblank := many_line?_blank (bodyText lines)
  rw [toList_tableOfLines]
  have hname : PlainName "t" := by decide
  exact read_oneTable hname
    (Prod.ext (hblank.1.trans hlines.1) rfl) (hblank.2.trans hlines.2)

/-! ## What comes of the lines -/

def Outline.Line.fault? : Line → Option Fault
  | .fault x => some x
  | _ => none

theorem Outline.Line.faults_events (l : Line) :
    l.events.filterMap Event.fault? = l.fault?.toList := by cases l <;> rfl

/-- The column with no id. -/
def Column.withoutId (c : Column) : Column := c.rename fun _ => ""

/-- The column that is made of a line alone. -/
def aloneColumn (line : String) : Option Column :=
  ((aloneLine line.toList).bind Line.column?).map fun c => c.toColumn ""

/-- What is wrong with a line alone, its first line being the only one. -/
def aloneDiagnostic (line : String) : Option Diagnostic :=
  ((aloneLine line.toList).bind Line.fault?).map
    (Fault.toDiagnostic (line.toList ++ ['\n', '}']))

theorem columns_linesAt (lines : List String) :
    (draftOfLines lines).columns.map (fun c => c.toColumn "") =
      lines.flatMap fun line => (aloneColumn line).toList := by
  rw [TableDraft.columns, draftOfLines]
  dsimp only
  induction lines with
  | nil => rfl
  | cons line lines ih =>
    rw [linesAt, List.filterMap_append, List.map_append, ih, List.flatMap_cons, aloneColumn]
    congr 1
    cases aloneLine line.toList with
    | none => rfl
    | some l => cases l <;> rfl

/-- What is wrong with a line is reported as it is alone, as many lines further down as stand in
front of it. -/
theorem toDiagnostic_behindLine {line : String} (h : PlainLine line.toList) {x : Fault}
    (hx : aloneLine line.toList = some (.fault x)) {before : List Char} (hb : WholeLines before)
    (a : List Char) :
    (x.moved (behindLine a)).toDiagnostic (before ++ (line.toList ++ '\n' :: a)) =
      (x.toDiagnostic (line.toList ++ ['\n', '}'])).down (before.count '\n') := by
  obtain ⟨p, hp, hpx⟩ := Option.map_eq_some_iff.1 hx
  obtain ⟨l, r⟩ := p
  obtain rfl : l = .fault x := hpx
  have hsuffix := ((line?_meets _ _ _ hp).mem (.fault x) List.mem_cons_self).1
  rcases line?_agree h a (b := ['}']) (by decide) with ⟨-, halone⟩ | ⟨l, -, halone, hfault⟩
  · rw [line?_congr halone, line?_closing] at hp
    cases hp
  · obtain ⟨rfl, -⟩ := Prod.mk.inj (Option.some.inj (halone.symm.trans hp))
    obtain ⟨w, hw, hrest⟩ := hfault x rfl
    have hmoved : (x.moved (behindLine a)).rest = w ++ '\n' :: a := by
      rw [Fault.moved, hrest, behindLine_append hw]
    obtain ⟨u, hu⟩ : w <:+ line.toList :=
      List.suffix_append_self_iff.1 (show w ++ ['\n', '}'] <:+ _ from hrest ▸ hsuffix)
    rw [Fault.toDiagnostic_append hb (by rw [hmoved, ← hu, List.append_assoc]; exact ⟨u, rfl⟩)]
    congr 1
    rw [Fault.toDiagnostic, Fault.toDiagnostic, hmoved, hrest, ← hu, List.append_assoc,
      List.append_assoc, Location.locate_append, Location.locate_append]
    rfl

theorem diagnostics_linesAt {lines : List String} (h : ∀ line ∈ lines, PlainLine line.toList)
    {before : List Char} (hb : WholeLines before) :
    ((linesAt lines).filterMap Line.fault?).map (Fault.toDiagnostic (before ++ bodyText lines)) =
      (lines.zipIdx (before.count '\n')).flatMap fun p =>
        (aloneDiagnostic p.1).toList.map (Diagnostic.down p.2) := by
  induction lines generalizing before with
  | nil => rfl
  | cons line lines ih =>
    have hwhole : WholeLines (before ++ (line.toList ++ ['\n'])) :=
      .inr ⟨before ++ line.toList, by simp⟩
    have hrest := ih (fun l hl => h l (List.mem_cons_of_mem line hl)) hwhole
    have hcount : (before ++ (line.toList ++ ['\n'])).count '\n' = before.count '\n' + 1 := by
      simp [List.count_append, List.count_eq_zero.2 (h line List.mem_cons_self).no_newline]
    have htext : before ++ bodyText (line :: lines) =
        before ++ (line.toList ++ ['\n']) ++ bodyText lines := by
      rw [bodyText_cons]; simp
    rw [hcount] at hrest
    rw [linesAt, List.filterMap_append, List.map_append, List.zipIdx_cons, List.flatMap_cons,
      ← hrest, htext]
    congr 1
    rw [aloneDiagnostic]
    cases hl : aloneLine line.toList with
    | none => rfl
    | some l =>
      cases l with
      | fault x =>
        have hx := toDiagnostic_behindLine (h line List.mem_cons_self) hl hb (bodyText lines)
        simpa [Line.fault?, Line.moved] using hx
      | _ => rfl

theorem faults_draftOfLines (lines : List String) :
    faults [.table (.table (draftOfLines lines))] = (linesAt lines).filterMap Line.fault? := by
  rw [faults_eq, List.flatMap_cons, List.flatMap_nil, List.append_nil]
  show ((linesAt lines).flatMap Line.events).filterMap Event.fault? = _
  rw [List.filterMap_flatMap, List.filterMap_eq_flatMap_toList]
  simp only [Line.faults_events]

/-- The one table of a document. -/
theorem tables_one {d : TableDraft} {ids : List String}
    (h : (Item.table (.table d)).idKinds.length ≤ ids.length) :
    ∃ t, tables [.table (.table d)] ids = [t] ∧
      t.columns.map Column.withoutId = d.columns.map fun c => c.toColumn "" := by
  rw [idKinds_table, List.length_cons, List.length_map] at h
  rw [tables_cons, idKinds_table, List.length_cons, List.length_map]
  cases ids with
  | nil => simp at h
  | cons id ids =>
    refine ⟨d.toTable id (ids.take d.columns.length), rfl, ?_⟩
    refine map_zipWith_left (fun c id => toColumn_rename (fun _ => "") c id) ?_
    rw [List.length_take]
    simp only [List.length_cons] at h
    omega

/-- A table with lines that are read by themselves has the columns that they give alone, and reports
what is wrong with each. -/
theorem parse_tableOfLines {σ : Type} {source : IdSource σ} (hs : source.Total) (st : σ)
    {lines : List String} (h : ∀ line ∈ lines, PlainLine line.toList) :
    ∃ s t, parse source st (tableOfLines lines) =
        ⟨some s, (lines.zipIdx 1).flatMap fun p =>
          (aloneDiagnostic p.1).toList.map (Diagnostic.down p.2)⟩ ∧
      s.tables = [t] ∧
      t.columns.map Column.withoutId = lines.flatMap fun line => (aloneColumn line).toList := by
  have hread := read_tableOfLines h
  have htext := toList_tableOfLines lines
  have hblank : (tableOfLines lines).toList.all isBlank = false := by rw [htext]; rfl
  have hparse := parse_of_total hs st hblank
  have hkinds : (Item.table (.table (draftOfLines lines))).idKinds.length ≤
      (source.idsFor (idKinds [.table (.table (draftOfLines lines))]) st).length := by
    rw [IdSource.length_idsFor hs, idKinds_eq, List.flatMap_cons, List.length_append,
      List.length_append]
    omega
  obtain ⟨t, ht, hcolumns⟩ := tables_one hkinds
  have hwhole : WholeLines "Table t \x7b\n".toList := .inr ⟨"Table t \x7b".toList, rfl⟩
  have hdiagnostics := diagnostics_linesAt h hwhole
  rw [hread, faults_draftOfLines, htext, hdiagnostics] at hparse
  exact ⟨_, t, hparse, ht, hcolumns.trans (columns_linesAt lines)⟩

/-- The columns of all tables. -/
def Parsed.columns (p : Parsed) : List Column :=
  p.schema.toList.flatMap fun s => s.tables.flatMap Table.columns

/-- The lines of a table are read independently of each other. There is one table whatever they
hold, its columns are those of the lines alone, and what is wrong with a line is reported as it is
alone, as many lines further down as other lines stand in front of it. -/
theorem parse_columnLines {σ τ : Type} {source : IdSource σ} {alone : IdSource τ}
    (hs : source.Total) (ha : alone.Total) (st : σ) (st' : τ) {lines : List String}
    (h : ∀ line ∈ lines, PlainLine line.toList) :
    ∃ s t, (parse source st (tableOfLines lines)).schema = some s ∧ s.tables = [t] ∧
      t.columns.map Column.withoutId =
        lines.flatMap (fun line =>
          (parse alone st' (tableOfLines [line])).columns.map Column.withoutId) ∧
      (parse source st (tableOfLines lines)).diagnostics =
        lines.zipIdx.flatMap fun (line, i) =>
          (parse alone st' (tableOfLines [line])).diagnostics.map (Diagnostic.down i) := by
  obtain ⟨s, t, hparse, ht, hcolumns⟩ := parse_tableOfLines hs st h
  have hone : ∀ line ∈ lines,
      (parse alone st' (tableOfLines [line])).columns.map Column.withoutId =
          (aloneColumn line).toList ∧
        (parse alone st' (tableOfLines [line])).diagnostics =
          (aloneDiagnostic line).toList.map (Diagnostic.down 1) := by
    intro line hline
    have hplain : ∀ l ∈ [line], PlainLine l.toList := by simpa using h line hline
    obtain ⟨s, t, hparse, ht, hcolumns⟩ := parse_tableOfLines ha st' hplain
    rw [hparse, Parsed.columns]
    simp only [Option.toList_some, List.flatMap_cons, List.flatMap_nil, ht, List.append_nil,
      List.zipIdx_cons, List.zipIdx_nil] at hcolumns ⊢
    exact ⟨hcolumns, trivial⟩
  refine ⟨s, t, by rw [hparse], ht, hcolumns.trans ?_, ?_⟩
  · exact List.flatMap_congr fun line hline => (hone line hline).1.symm
  · rw [hparse, List.zipIdx_succ, List.flatMap_map]
    refine List.flatMap_congr fun ⟨line, i⟩ hp => ?_
    have hdown : ∀ d : Diagnostic, (d.down 1).down i = d.down (i + 1) := by
      intro d
      simp only [Diagnostic.down]
      congr 1
      omega
    dsimp only
    rw [(hone line (List.fst_mem_of_mem_zipIdx hp)).2, List.map_map]
    exact List.map_congr_left fun d _ => (hdown d).symm

/-- Lines with all that may be wrong with a column, and with a comment. -/
def brokenLines : List String :=
  ["a int [pk, default: \"x", "  [not null]", "# b int", "c dec(10, [unique]", "d [note: e]",
    "Note: \x60f, g", "h int [ref: > i.", "/ j int"]

theorem parse_columnLines_brokenLines :
    IdSource.counting.Total ∧ (∀ line ∈ brokenLines, PlainLine line.toList) ∧
      ∃ s t, (parse IdSource.counting 1 (tableOfLines brokenLines)).schema = some s ∧
        s.tables = [t] ∧
        t.columns.map Column.withoutId = [
          { id := "", name := "a", type := "int", constraints := { pk := some true }
            defaultValue := some "x" },
          { id := "", name := "c", type := "dec(10, [unique]" },
          { id := "", name := "h", type := "int", constraints := { fk := some true } }] ∧
        (parse IdSource.counting 1 (tableOfLines brokenLines)).diagnostics = [
          .errorAt ⟨3, 3⟩ "Expected column name",
          .errorAt ⟨6, 3⟩ "Expected type for column \"d\""] := by
  have hlines : ∀ line ∈ brokenLines, PlainLine line.toList := by decide +kernel
  obtain ⟨s, t, hs, ht, hcolumns, hdiagnostics⟩ := parse_columnLines IdSource.counting_total
    IdSource.counting_total 1 1 hlines
  refine ⟨IdSource.counting_total, hlines, s, t, hs, ht, hcolumns.trans ?_,
    hdiagnostics.trans ?_⟩
  · decide +kernel
  · decide +kernel

end Dbml
