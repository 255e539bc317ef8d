import Dbml.Proofs.Numbering
import Dbml.Proofs.Places
import Dbml.Proofs.RoundTrip

/-!
# Documents one behind the other

A document may have canonical tables and relations in front of it, and lines that are nothing to the
reader. Reading carries nothing from one statement to the next but the references that are yet to be
resolved, so all that stands behind is read as it would be alone: the same statements, the same
faults as many lines further down, and the same tables with the ids that come next. Only references
may lead elsewhere, since there are more tables to find.

Results:
* `locate_append_lines`: behind whole lines, places keep their column and go down by these lines;
* `read_chunks`: chunks in front of a text are read as what they show, and the text as it is alone;
* `toSchema_append`: what two documents give, one behind the other;
* `parse_append`: the parse of chunks and a text, by that of the text.
-/
namespace Dbml

open Text Outline Canonical

/-! ## Places behind whole lines -/

/-- The location some lines further down. -/
def Location.down (n : Nat) (l : Location) : Location := ⟨l.line + n, l.column⟩

/-- The diagnostic some lines further down. -/
def Diagnostic.down (n : Nat) (d : Diagnostic) : Diagnostic := { d with line := d.line + n }

/-- A text that is empty or ends with a newline. -/
def WholeLines (s : List Char) : Prop := s = [] ∨ ∃ t, s = t ++ ['\n']

namespace Location

theorem next_down (n : Nat) (l : Location) (c : Char) : (l.down n).next c = (l.next c).down n := by
  simp only [next, down]; split
  · exact congrArg (Location.mk · 1) (Nat.add_right_comm l.line n 1)
  · rfl

theorem foldl_next_down (n : Nat) (l : Location) (s : List Char) :
    s.foldl next (l.down n) = (s.foldl next l).down n := by
  induction s generalizing l with
  | nil => rfl
  | cons c s ih => rw [List.foldl_cons, next_down, ih, List.foldl_cons]

/-- Behind whole lines another line starts. -/
theorem after_wholeLines {s : List Char} (h : WholeLines s) :
    after s = start.down (s.count '\n') := by
  rcases h with rfl | ⟨t, rfl⟩
  · rfl
  · rw [after_concat, next, after_line, List.count_append]
    simp only [beq_self_eq_true, if_true, List.count_singleton_self, down, start]
    exact congrArg (Location.mk · 1) (by omega)

/-- Behind whole lines, places keep their column and go down by these lines. -/
theorem locate_append_lines {s t rest : List Char} (hs : WholeLines s) (ht : rest <:+ t) :
    locate (s ++ t) rest = (locate t rest).down (s.count '\n') := by
  obtain ⟨w, rfl⟩ := ht
  rw [← List.append_assoc, locate_append, locate_append, after_append, after_wholeLines hs,
    foldl_next_down]
  rfl

end Location

theorem Fault.toDiagnostic_append {s t : List Char} {f : Fault} (hs : WholeLines s)
    (hf : f.rest <:+ t) :
    f.toDiagnostic (s ++ t) = (f.toDiagnostic t).down (s.count '\n') := by
  rw [toDiagnostic, toDiagnostic, Location.locate_append_lines hs hf]
  simp [Diagnostic.errorAt, Diagnostic.down, Location.down]

/-- Behind whole lines, the faults of a text are reported as many lines further down. -/
theorem map_toDiagnostic_append {s : List Char} (hs : WholeLines s) (t : List Char) :
    (Outline.read t).faults.map (Fault.toDiagnostic (s ++ t)) =
      ((Outline.read t).faults.map (Fault.toDiagnostic t)).map
        (Diagnostic.down (s.count '\n')) := by
  rw [List.map_map]
  refine List.map_congr_left fun f hf => ?_
  obtain ⟨e, he, hfe⟩ := List.mem_filterMap.1 hf
  cases e with
  | fault g =>
    obtain rfl := Option.some.inj hfe
    exact Fault.toDiagnostic_append hs (fault_suffix he)
  | draw kind rest => cases hfe

/-! ## Words in front of a gap -/

/-- Blanks and newlines. -/
def isGap (c : Char) : Bool := isInlineSpace c || c == '\n'

/-- A text that is empty or goes on with a blank or a newline. -/
def GapFront (x : List Char) : Prop := StopsAt (!isGap ·) x

theorem gapFront_newline (s : List Char) : GapFront ('\n' :: s) := stopsAt_cons.2 rfl

theorem GapFront.eq_or {x : List Char} (hx : GapFront x) :
    x = [] ∨ ∃ r, x = ' ' :: r ∨ x = '\t' :: r ∨ x = '\r' :: r ∨ x = '\n' :: r := by
  cases x with
  | nil => exact .inl rfl
  | cons c r =>
    have hgap : isGap c = true := by simpa using stopsAt_cons.1 hx
    simp only [isGap, isInlineSpace, Bool.or_eq_true, beq_iff_eq] at hgap
    right
    refine ⟨r, ?_⟩
    rcases hgap with ((rfl | rfl) | rfl) | rfl <;> simp

theorem GapFront.stopsAt {x : List Char} (hx : GapFront x) {p : Char → Bool}
    (hp : p ' ' = false ∧ p '\t' = false ∧ p '\r' = false ∧ p '\n' = false) : StopsAt p x := by
  obtain ⟨hspace, htab, hreturn, hnewline⟩ := hp
  obtain rfl | ⟨r, rfl | rfl | rfl | rfl⟩ := hx.eq_or
  · exact stopsAt_nil p
  all_goals exact stopsAt_cons.2 ‹_›

namespace Text

section Gaps

variable {x : List Char} (hx : GapFront x)
include hx

/-- A word ends where a text ends that has a gap behind it. -/
theorem readWord_append_gap (w : List Char) :
    readWord (w ++ x) = ((readWord w).1, (readWord w).2 ++ x) := by
  cases w with
  | nil => exact readWord_of_stopsAt (hx.stopsAt (by decide))
  | cons c w =>
    have hstop : StopsAt isWordChar x := hx.stopsAt (by decide)
    obtain ⟨htake, hdrop⟩ := span_append_of_stopsAt hstop w
    rw [List.cons_append, readWord, readWord]
    split
    · rw [htake, hdrop]
    · rfl

theorem dropFolded?_append_gap {k : List Char} (hk : k.all (fun c => !isGap c.toLower) = true)
    (w : List Char) : dropFolded? k (w ++ x) = (dropFolded? k w).map (· ++ x) := by
  induction k generalizing w with
  | nil => rfl
  | cons c k ih =>
    rw [List.all_cons, Bool.and_eq_true] at hk
    cases w with
    | cons d w =>
      simp only [List.cons_append, dropFolded?]
      split
      · exact ih hk.2 w
      · rfl
    | nil =>
      have hnone : ∀ (d : Char) (r : List Char), isGap d.toLower = true →
          dropFolded? (c :: k) (d :: r) = none := by
        intro d r hd
        have hne : (d.toLower == c.toLower) = false := by
          refine beq_false_of_ne fun he => ?_
          rw [← he, hd] at hk
          exact Bool.noConfusion hk.1
        simp only [dropFolded?, hne]
        rfl
      obtain rfl | ⟨r, rfl | rfl | rfl | rfl⟩ := hx.eq_or
      · rfl
      all_goals exact hnone _ r (by decide)

theorem wordEnds_append_gap (w : List Char) : wordEnds (w ++ x) = wordEnds w := by
  cases w with
  | cons c w => rfl
  | nil => obtain rfl | ⟨r, rfl | rfl | rfl | rfl⟩ := hx.eq_or <;> rfl

/-- Whether a keyword stands at the front of a text does not depend on a gap behind the text. -/
theorem keyword?_append_gap {k : String} (hk : k.toList.all (fun c => !isGap c.toLower) = true)
    (w : List Char) : keyword? k (w ++ x) = (keyword? k w).map (· ++ x) := by
  rw [keyword?, keyword?, dropFolded?_append_gap hx hk]
  cases dropFolded? k.toList w with
  | none => rfl
  | some r =>
    simp only [Option.map_some, Option.filter_some, wordEnds_append_gap hx]
    split <;> rfl

end Gaps

end Text

/-! ## Stray lines -/

namespace Text

theorem skipLine_append_newline {w : List Char} (h : '\n' ∉ w) (s : List Char) :
    skipLine (w ++ '\n' :: s) = s := by
  have hw : ∀ c ∈ w, (c != '\n') = true := fun c hc => by
    simpa using fun he : c = '\n' => h (he ▸ hc)
  rw [skipLine, List.dropWhile_append_of_pos hw]
  simp

end Text

/-- The words that statements start with. -/
def statementWords : List String := "Table" :: "Ref" :: skippedWords

/-- A line that is nothing to the reader: behind its blanks stands no word of a statement, and no
block comment is opened there. -/
structure StrayLine (line : List Char) : Prop where
  no_newline : '\n' ∉ line
  no_comment : ¬['/', '*'] <+: skipInline line
  no_word : ∀ word ∈ statementWords, keyword? word (skipInline line) = none

instance (line : List Char) : Decidable (StrayLine line) :=
  decidable_of_iff ('\n' ∉ line ∧ ¬['/', '*'] <+: skipInline line ∧
      ∀ word ∈ statementWords, keyword? word (skipInline line) = none)
    ⟨fun h => ⟨h.1, h.2.1, h.2.2⟩, fun h => ⟨h.no_newline, h.no_comment, h.no_word⟩⟩

theorem readItem_stray {s : List Char} (hw : ∀ word ∈ statementWords, keyword? word s = none) :
    readItem s = (.stray, skipLine s) := by
  have hskipped : (skippedWords.any fun word => (keyword? word s).isSome) = false := by
    rw [List.any_eq_false]
    intro word hword
    rw [hw word (List.mem_cons_of_mem _ (List.mem_cons_of_mem _ hword))]
    simp
  simp only [readItem, hw "Table" (by decide), hw "Ref" (by decide), hskipped]
  rfl

/-- In front of no blank and no block comment, filler goes to the end of its line. -/
theorem fillerPiece?_line {s r : List Char} (hs : StopsAt isInlineSpace s)
    (hc : ¬['/', '*'] <+: s) (h : fillerPiece? s = some r) : r = skipLine s := by
  have hskip : ∀ {c : Char} (t : List Char), c ≠ '\n' → skipLine (c :: t) = skipLine t := by
    intro c t hc
    simp [skipLine, hc]
  unfold fillerPiece? at h
  split at h
  · cases h
  · rename_i c t
    rw [stopsAt_cons.1 hs, Bool.false_or] at h
    split at h
    · rename_i he
      obtain rfl := eq_of_beq he
      exact (Option.some.inj h).symm
    · rename_i he
      rw [hskip t (by simpa using he)]
      unfold comment? at h
      split at h
      · rename_i e
        obtain ⟨-, rfl⟩ := List.cons.inj e
        exact (Option.some.inj h).symm
      · rename_i u e
        obtain ⟨-, rfl⟩ := List.cons.inj e
        rw [hskip u (by decide)]
        exact (Option.some.inj h).symm
      · rename_i u e
        rw [e] at hc
        exact absurd (List.prefix_append ['/', '*'] u) hc
      · cases h

/-- A text that starts with no word of a statement and no block comment is overlooked to the end of
its first line, or that line is read as a stray statement. -/
theorem read_strayFront {s : List Char} (hs : StopsAt isInlineSpace s) (hc : ¬['/', '*'] <+: s)
    (hw : ∀ word ∈ statementWords, keyword? word s = none) :
    ∃ o, Outline.read s = o ++ Outline.read (skipLine s) ∧ ∀ i ∈ o, i = .stray := by
  cases hp : fillerPiece? s with
  | some r =>
    obtain rfl := fillerPiece?_line hs hc hp
    exact ⟨[], read_congr (skipMany_of_some hp), by simp⟩
  | none =>
    cases s with
    | nil => exact ⟨[], rfl, by simp⟩
    | cons c s =>
      have hitem : item? (c :: s) = some (.stray, skipLine (c :: s)) := by
        rw [item?_of_skipFiller (skipMany_of_none hp), readItem_stray hw]
      exact ⟨[.stray], read_of_item? hitem, by simp⟩

/-- A stray line is overlooked, or it is read as a stray statement. -/
theorem read_stray {line : List Char} (h : StrayLine line) (s : List Char) :
    ∃ o, Outline.read (line ++ '\n' :: s) = o ++ Outline.read s ∧ ∀ i ∈ o, i = .stray := by
  have hfront : skipFiller (line ++ '\n' :: s) = skipFiller (skipInline line ++ '\n' :: s) := by
    conv => lhs; rw [← List.takeWhile_append_dropWhile (p := isInlineSpace) (l := line)]
    rw [List.append_assoc]
    refine skipMany_append (fun c hc r => ?_) _
    have hc' : isInlineSpace c = true := List.mem_takeWhile_imp hc
    simp [fillerPiece?, hc']
  have hn : '\n' ∉ skipInline line := fun hm => h.no_newline ((skipInline_suffix line).mem hm)
  have hstop : StopsAt isInlineSpace (skipInline line ++ '\n' :: s) := by
    have := stopsAt_dropWhile isInlineSpace line
    cases hw : skipInline line with
    | nil => exact stopsAt_cons.2 (by decide)
    | cons c w => rwa [← skipInline, hw] at this
  have hcomment : ¬['/', '*'] <+: skipInline line ++ '\n' :: s := by
    have := h.no_comment
    rcases hw : skipInline line with _ | ⟨c, _ | ⟨d, w⟩⟩
    · simp
    · simp
    · rw [hw] at this
      exact fun hp => this (by simpa using hp)
  have hnone : ∀ word ∈ statementWords, keyword? word (skipInline line ++ '\n' :: s) = none := by
    intro word hword
    have hk : ∀ word ∈ statementWords, word.toList.all (fun c => !isGap c.toLower) = true := by
      decide
    rw [keyword?_append_gap (gapFront_newline s) (hk word hword), h.no_word word hword,
      Option.map_none]
  obtain ⟨o, ho, hstray⟩ := read_strayFront hstop hcomment hnone
  rw [skipLine_append_newline hn] at ho
  exact ⟨o, (read_congr hfront).trans ho, hstray⟩

/-! ## Chunks -/

/-- A piece of a document, with the end of its last line. -/
inductive Chunk where
  | stray (line : List Char)
  | block (block : Block)

namespace Chunk

def text : Chunk → List Char
  | stray line => line ++ ['\n']
  | block b => b.text.toList ++ ['\n']

/-- A chunk that is nothing to the reader, or is read back. -/
def Plain : Chunk → Prop
  | stray line => StrayLine line
  | block b => b.Rereadable

def block? : Chunk → Option Block
  | stray _ => none
  | block b => some b

end Chunk

/-- The text of chunks. -/
def chunkText (chunks : List Chunk) : List Char := chunks.flatMap Chunk.text

/-- The tables of chunks. -/
def chunkTables (chunks : List Chunk) : List Table :=
  (chunks.filterMap Chunk.block?).filterMap Block.table?

/-- The relations of chunks. -/
def chunkRelations (chunks : List Chunk) : List Relation :=
  (chunks.filterMap Chunk.block?).filterMap Block.relation?

theorem wholeLines_chunkText (chunks : List Chunk) : WholeLines (chunkText chunks) := by
  rcases List.eq_nil_or_concat chunks with rfl | ⟨cs, c, rfl⟩
  · exact .inl rfl
  · right
    rw [chunkText, List.concat_eq_append, List.flatMap_append, List.flatMap_singleton]
    cases c with
    | stray line => exact ⟨cs.flatMap Chunk.text ++ line, by simp [Chunk.text]⟩
    | block b => exact ⟨cs.flatMap Chunk.text ++ b.text.toList, by simp [Chunk.text]⟩

namespace Outline

/-- A document without its stray lines. -/
def withoutStray (o : Outline) : Outline := o.filter (· ≠ .stray)

theorem withoutStray_stray (o : Outline) : withoutStray (.stray :: o) = withoutStray o := rfl

theorem withoutStray_cons {i : Item} (h : i ≠ .stray) (o : Outline) :
    withoutStray (i :: o) = i :: withoutStray o := by
  simp [withoutStray, h]

/-- Stray lines are no more than their lines. -/
theorem withoutStray_flatMap {β : Type} {f : Item → List β} (h : f .stray = []) (o : Outline) :
    (withoutStray o).flatMap f = o.flatMap f := by
  induction o with
  | nil => rfl
  | cons i o ih =>
    by_cases hi : i = .stray
    · rw [hi, withoutStray_stray, ih, List.flatMap_cons, h, List.nil_append]
    · rw [withoutStray_cons hi, List.flatMap_cons, List.flatMap_cons, ih]

theorem withoutStray_relationCount (o : Outline) :
    (withoutStray o).relationCount = o.relationCount := by
  induction o with
  | nil => rfl
  | cons i o ih =>
    by_cases hi : i = .stray
    · rw [hi, withoutStray_stray, ih, relationCount_cons]; exact (Nat.zero_add _).symm
    · rw [withoutStray_cons hi, relationCount_cons, relationCount_cons, ih]

theorem withoutStray_build (o : Outline) (ids : List String) :
    (withoutStray o).tables ids = o.tables ids ∧ (withoutStray o).drafts ids = o.drafts ids := by
  induction o generalizing ids with
  | nil => exact ⟨rfl, rfl⟩
  | cons i o ih =>
    by_cases hi : i = .stray
    · rw [hi, withoutStray_stray, tables_cons, drafts_cons]; exact ih ids
    · obtain ⟨ht, hd⟩ := ih (ids.drop i.idKinds.length)
      rw [withoutStray_cons hi, tables_cons, tables_cons, drafts_cons, drafts_cons, ht, hd]
      exact ⟨rfl, rfl⟩

end Outline

theorem Canonical.Shows.ne_stray {i : Item} {b : Block} (h : Shows i b) : i ≠ .stray := by
  cases h <;> simp

/-- Chunks in front of a text are read as what they show, and the text as it is alone. -/
theorem read_chunks {chunks : List Chunk} (h : ∀ c ∈ chunks, c.Plain) (s : List Char) :
    ∃ o, Outline.read (chunkText chunks ++ s) = o ++ Outline.read s ∧
      List.Forall₂ Shows o.withoutStray (chunks.filterMap Chunk.block?) := by
  induction chunks with
  | nil => exact ⟨[], rfl, .nil⟩
  | cons c chunks ih =>
    obtain ⟨o, ho, hshows⟩ := ih fun d hd => h d (List.mem_cons_of_mem _ hd)
    have hc := h c List.mem_cons_self
    cases c with
    | stray line =>
      obtain ⟨p, hp, hstray⟩ := read_stray hc (chunkText chunks ++ s)
      refine ⟨p ++ o, ?_, ?_⟩
      · rw [List.append_assoc, ← ho, ← hp]
        simp [chunkText, Chunk.text]
      · have hnone : p.withoutStray = [] := by
          simpa [Outline.withoutStray, List.filter_eq_nil_iff] using hstray
        rw [Outline.withoutStray, List.filter_append]
        exact (congrArg (· ++ o.withoutStray) hnone).symm ▸ hshows
    | block b =>
      obtain ⟨i, hi, hs⟩ := item?_block hc ('\n' :: (chunkText chunks ++ s))
      refine ⟨i :: o, ?_, ?_⟩
      · have hread := read_of_item? hi
        rw [read_newline, ho] at hread
        rw [List.cons_append, ← hread]
        simp [chunkText, Chunk.text]
      · rw [Outline.withoutStray_cons hs.ne_stray]
        exact .cons hs hshows

/-! ## Documents -/

namespace Outline

theorem faults_append (o p : Outline) : faults (o ++ p) = o.faults ++ p.faults := by
  rw [faults_eq, faults_eq, faults_eq, List.flatMap_append]

theorem relationCount_append (o p : Outline) :
    relationCount (o ++ p) = o.relationCount + p.relationCount := by
  induction o with
  | nil => exact (Nat.zero_add _).symm
  | cons i o ih => rw [List.cons_append, relationCount_cons, relationCount_cons, ih, Nat.add_assoc]

theorem build_append (o p : Outline) (ids : List String) :
    Outline.build (o ++ p) ids =
      ((o.build ids).1 ++ (p.build (o.build ids).2).1, (p.build (o.build ids).2).2) := by
  induction o generalizing ids with
  | nil => rfl
  | cons i o ih => rw [List.cons_append, build_cons, build_cons, ih]; rfl

/-- Statements take the ids that they drew and leave all others. -/
theorem build_append_ids {o : Outline} {ids : List String}
    (h : ids.length = (o.flatMap Item.idKinds).length) (rest : List String) :
    o.build (ids ++ rest) = ((o.build ids).1, rest) := by
  induction o generalizing ids with
  | nil => obtain rfl := List.eq_nil_of_length_eq_zero h; rfl
  | cons i o ih =>
    rw [List.flatMap_cons, List.length_append] at h
    have hle : i.idKinds.length ≤ ids.length := by omega
    have hdrop : (ids.drop i.idKinds.length).length = (o.flatMap Item.idKinds).length := by
      rw [List.length_drop, h, Nat.add_sub_cancel_left]
    rw [build_cons, build_cons, List.take_append_of_le_length hle,
      List.drop_append_of_le_length hle, ih hdrop]

/-- The tables of a document take the ids drawn on the way, and its relations those behind. -/
theorem toSchema_append_ids {o : Outline} {ids : List String}
    (h : ids.length = (o.flatMap Item.idKinds).length) (rest : List String) :
    o.toSchema (ids ++ rest) =
      { tables := o.tables ids
        relations :=
          List.zipWith (RelationDraft.toRelation (o.tables ids)) (o.drafts ids) rest } := by
  simp only [toSchema, build_append_ids h, tables, drafts]

/-- Two documents, one behind the other, give the tables and the drafts of both. -/
theorem tables_append {o : Outline} {ids : List String}
    (h : ids.length = (o.flatMap Item.idKinds).length) (p : Outline) (js : List String) :
    (o ++ p).tables (ids ++ js) = o.tables ids ++ p.tables js ∧
      (o ++ p).drafts (ids ++ js) = o.drafts ids ++ p.drafts js := by
  simp only [tables, drafts, build_append, build_append_ids h, List.filterMap_append,
    List.flatMap_append, and_self]

end Outline

theorem blockKinds_eq (bs : List Block) :
    bs.flatMap Block.idKinds = (bs.filterMap Block.table?).flatMap Table.idKinds := by
  induction bs with
  | nil => rfl
  | cons b bs ih =>
    rw [List.flatMap_cons, ih]
    cases b with
    | table t => rfl
    | relation r => rfl
    | group g => rfl

/-- What is read of chunks: no faults, their tables with new ids, and a draft for each relation. -/
theorem chunks_of_shows {o : Outline} {chunks : List Chunk}
    (h : List.Forall₂ Shows o.withoutStray (chunks.filterMap Chunk.block?)) :
    o.faults = [] ∧ o.flatMap Item.idKinds = (chunkTables chunks).flatMap Table.idKinds ∧
      o.relationCount = (chunkRelations chunks).length ∧
      ∀ ids : List String, ((chunkTables chunks).flatMap Table.idKinds).length ≤ ids.length →
        o.tables ids = handOut ((chunkTables chunks).map Table.kept) ids ∧
          o.drafts ids = (chunkRelations chunks).map draft := by
  have hkinds : o.flatMap Item.idKinds = (chunkTables chunks).flatMap Table.idKinds := by
    rw [← Outline.withoutStray_flatMap (f := Item.idKinds) rfl, itemKinds_of_shows h, blockKinds_eq]
    rfl
  have hfaults := faults_of_shows h
  rw [Outline.faults_eq, Outline.withoutStray_flatMap rfl, ← Outline.faults_eq] at hfaults
  refine ⟨hfaults, hkinds, ?_, fun ids hids => ?_⟩
  · rw [← Outline.withoutStray_relationCount, relationCount_of_shows h]; rfl
  · obtain ⟨ht, hd⟩ := o.withoutStray_build ids
    rw [chunkTables, ← blockKinds_eq] at hids
    obtain ⟨htables, hdrafts, -⟩ := build_of_shows h hids
    exact ⟨ht.symm.trans htables, hd.symm.trans hdrafts⟩

/-! ## Parsing -/

section Parsing

variable {σ : Type} (source : IdSource σ) (st : σ)

/-- The ids drawn while a document is read. -/
def readIds (o : Outline) : List String := source.idsFor (o.flatMap Item.idKinds) st

/-- The state of the source when a document is read, before the ids of its relations are drawn. -/
def readState (o : Outline) : σ := source.after (o.flatMap Item.idKinds) st

/-- The relations of a document before all tables are known. -/
def pending (o : Outline) : List RelationDraft := o.drafts (readIds source st o)

/-- The ids drawn for the tables of chunks. -/
def chunkIds (chunks : List Chunk) : List String :=
  source.idsFor ((chunkTables chunks).flatMap Table.idKinds) st

/-- The state of the source when the ids for the tables of chunks are drawn. -/
def chunkState (chunks : List Chunk) : σ :=
  source.after ((chunkTables chunks).flatMap Table.idKinds) st

/-- Relations that come of drafts, with ids from a source. -/
def drawRelations (tables : List Table) (ds : List RelationDraft) : List Relation :=
  List.zipWith (RelationDraft.toRelation tables) ds (source.idsFor (ds.map fun _ => .relation) st)

variable {source}

/-- Relations keep the names and the cardinalities of their drafts. -/
theorem drawRelations_names (hs : source.Total) (tables : List Table) (ds : List RelationDraft) :
    (drawRelations source st tables ds).map (fun r => (r.name, r.cardinality)) =
      ds.map fun d => (d.name, d.cardinality) := by
  refine map_zipWith_left (fun d id => ?_) ?_
  · rfl
  · rw [IdSource.length_idsFor hs, List.length_map]

/-- What comes of a document: its tables take the ids that are drawn while it is read, and its
relations those behind. -/
theorem toSchema_idsFor (hs : source.Total) {o : Outline}
    (hc : (pending source st o).length = o.relationCount) :
    o.toSchema (source.idsFor o.idKinds st) =
      { tables := o.tables (readIds source st o)
        relations := drawRelations source (readState source st o)
          (o.tables (readIds source st o)) (pending source st o) } := by
  rw [idKinds_eq, IdSource.idsFor_append hs,
    Outline.toSchema_append_ids (IdSource.length_idsFor hs _ st), drawRelations, List.map_const',
    hc]
  rfl

theorem length_pending_read (hs : source.Total) (s : List Char) :
    (pending source st (Outline.read s)).length = (Outline.read s).relationCount :=
  (build_numbered (read_unclosedLast s) (IdSource.length_idsFor hs _ st).ge).2.2.1

/-- What comes of the statements of chunks and those of a text behind them. -/
theorem toSchema_append (hs : source.Total) {o p : Outline} {chunks : List Chunk}
    (h : List.Forall₂ Shows o.withoutStray (chunks.filterMap Chunk.block?)) {st' : σ}
    (hst : st' = chunkState source st chunks)
    (hc : (pending source st' p).length = p.relationCount) :
    (o ++ p).toSchema (source.idsFor (idKinds (o ++ p)) st) =
      { tables := handOut ((chunkTables chunks).map Table.kept) (chunkIds source st chunks) ++
          p.tables (readIds source st' p)
        relations := drawRelations source (readState source st' p)
          (handOut ((chunkTables chunks).map Table.kept) (chunkIds source st chunks) ++
            p.tables (readIds source st' p))
          ((chunkRelations chunks).map draft ++ pending source st' p) } := by
  subst hst
  obtain ⟨-, hkinds, hcount, hbuild⟩ := chunks_of_shows h
  have hids : readIds source st (o ++ p) =
      chunkIds source st chunks ++ readIds source (chunkState source st chunks) p := by
    rw [readIds, List.flatMap_append, IdSource.idsFor_append hs, hkinds]; rfl
  have hstate : readState source st (o ++ p) =
      readState source (chunkState source st chunks) p := by
    rw [readState, List.flatMap_append, IdSource.after_append hs, hkinds]; rfl
  have hlen : (chunkIds source st chunks).length = (o.flatMap Item.idKinds).length := by
    rw [chunkIds, IdSource.length_idsFor hs, hkinds]
  obtain ⟨htables, hdrafts⟩ := hbuild (chunkIds source st chunks) (by rw [hlen, hkinds])
  obtain ⟨hat, had⟩ := Outline.tables_append hlen p
    (readIds source (chunkState source st chunks) p)
  rw [htables, ← hids] at hat
  rw [hdrafts, ← hids] at had
  have hall : (pending source st (o ++ p)).length = relationCount (o ++ p) := by
    rw [relationCount_append, hcount, ← hc, pending, had, List.length_append, List.length_map]
    rfl
  rw [toSchema_idsFor st hs hall, hat, hstate, pending, had]
  rfl

/-- The parse of chunks and a text behind them, by that of the text alone with the ids that come
after those of the chunks' tables. The tables are those of the chunks and those of the text. The
diagnostics are those of the text, further down by the lines of the chunks. The relations are those
of the chunks and those of the text, which are looked up among all tables and draw their ids last.
-/
theorem parse_append (hs : source.Total) {chunks : List Chunk} (h : ∀ c ∈ chunks, c.Plain)
    {text : String} (hb : text.toList.all isBlank = false) {st' : σ}
    (hst : st' = chunkState source st chunks) :
    ∃ s t ds,
      parse source st' text = ⟨some t, ds⟩ ∧
      parse source st (String.ofList (chunkText chunks) ++ text) =
        ⟨some s, ds.map (Diagnostic.down ((chunkText chunks).count '\n'))⟩ ∧
      s.tables = handOut ((chunkTables chunks).map Table.kept) (chunkIds source st chunks) ++
        t.tables ∧
      t.relations = drawRelations source (readState source st' (Outline.read text.toList)) t.tables
        (pending source st' (Outline.read text.toList)) ∧
      s.relations = drawRelations source (readState source st' (Outline.read text.toList)) s.tables
        ((chunkRelations chunks).map draft ++ pending source st' (Outline.read text.toList)) ∧
      s.relations.map (fun r => (r.name, r.cardinality)) =
        (chunkRelations chunks).map (fun r => (nonEmpty r.name, r.cardinality)) ++
          t.relations.map fun r => (r.name, r.cardinality) := by
  obtain ⟨o, ho, hshows⟩ := read_chunks h text.toList
  have hcount := length_pending_read st' hs text.toList
  have hschema := toSchema_append st hs hshows hst hcount
  have hfaults : (o ++ Outline.read text.toList : Outline).faults =
      (Outline.read text.toList).faults := by
    rw [faults_append, (chunks_of_shows hshows).1, List.nil_append]
  have hlist : (String.ofList (chunkText chunks) ++ text).toList =
      chunkText chunks ++ text.toList := by simp
  have hb' : (String.ofList (chunkText chunks) ++ text).toList.all isBlank = false := by
    rw [hlist, List.all_append, hb, Bool.and_false]
  have hparse := parse_of_total hs st hb'
  rw [hlist, ho, hfaults, map_toDiagnostic_append (wholeLines_chunkText chunks), hschema] at hparse
  refine ⟨_, _, _, parse_of_total hs st' hb, hparse, ?_⟩
  rw [toSchema_idsFor st' hs hcount]
  refine ⟨rfl, rfl, rfl, ?_⟩
  rw [drawRelations_names _ hs, drawRelations_names _ hs, List.map_append, List.map_map]
  rfl

end Parsing

/-- A table with a name in backticks, and with a color that no canonical text keeps. -/
def listing : Table where
  id := "t"
  name := "a b"
  aliasName := some "ab"
  color := some "red"
  columns := [{ id := "c", name := "x", type := "int" }]

/-- A relation to a table that is yet to come. -/
def forward : Relation where
  id := "r"
  name := some ""
  source := ⟨"ab", "x"⟩
  target := ⟨"b", "y"⟩
  cardinality := .oneToMany

/-- Stray lines of all kinds, a table and a relation. -/
def foreword : List Chunk := [
  .stray "  // Table t \x7b".toList, .stray [], .stray "/ tables \x7b".toList,
  .block (.table listing), .stray "\t\x7d".toList, .block (.relation forward)]

/-- A text with faults and with a reference to a table before it. -/
def sequel : String := "Table b \x7b y\n z int [ref: > ab.x]\n\x7d\nRef: b.z"

theorem foreword_plain : ∀ c ∈ foreword, c.Plain := by
  have htable : listing.Rereadable := Table.EmitSafe.rereadable (by decide)
  have hrelation : forward.Rereadable := by decide
  have hstray : ∀ line ∈ ["  // Table t \x7b".toList, [], "/ tables \x7b".toList,
      "\t\x7d".toList], StrayLine line := by decide +kernel
  simp only [List.mem_cons, List.not_mem_nil, or_false, forall_eq_or_imp, forall_eq] at hstray
  obtain ⟨hcomment, hempty, hslash, hbrace⟩ := hstray
  simp only [foreword, List.mem_cons, List.not_mem_nil, or_false, forall_eq_or_imp, forall_eq]
  exact ⟨hcomment, hempty, hslash, htable, hbrace, hrelation⟩

theorem parse_append_foreword :
    IdSource.counting.Total ∧ (∀ c ∈ foreword, c.Plain) ∧ sequel.toList.all isBlank = false ∧
      3 = chunkState IdSource.counting 1 foreword ∧
      ∃ s t ds, parse IdSource.counting 3 sequel = ⟨some t, ds⟩ ∧
        parse IdSource.counting 1 (String.ofList (chunkText foreword) ++ sequel) =
          ⟨some s, ds.map (Diagnostic.down 10)⟩ ∧
        s.tables = handOut [listing.kept] ["table_1", "col_2"] ++ t.tables ∧
        ds.map (fun d => (d.line, d.column)) = [(1, 12), (4, 9)] ∧
        t.relations.map (fun r => (r.source, r.target)) =
          [(⟨"table_3", "col_4"⟩, ⟨"ab", "x"⟩)] ∧
        s.relations.map (fun r => (r.source, r.target)) = [
          (⟨"table_1", "col_2"⟩, ⟨"table_3", "y"⟩),
          (⟨"table_3", "col_4"⟩, ⟨"table_1", "col_2"⟩)] := by
  have hb : sequel.toList.all isBlank = false := by decide +kernel
  have hst : 3 = chunkState IdSource.counting 1 foreword := by decide +kernel
  obtain ⟨s, t, ds, ht, hs, htables, -, -, -⟩ :=
    parse_append 1 IdSource.counting_total foreword_plain hb hst
  have hids : chunkIds IdSource.counting 1 foreword = ["table_1", "col_2"] := by decide +kernel
  have hdown : (chunkText foreword).count '\n' = 10 := by decide +kernel
  have hplaces : (parse IdSource.counting 3 sequel).diagnostics.map
      (fun d => (d.line, d.column)) = [(1, 12), (4, 9)] := by decide +kernel
  have halone : (parse IdSource.counting 3 sequel).schema.map
      (·.relations.map fun r => (r.source, r.target)) =
        some [(⟨"table_3", "col_4"⟩, ⟨"ab", "x"⟩)] := by decide +kernel
  have htogether : (parse IdSource.counting 1
      (String.ofList (chunkText foreword) ++ sequel)).schema.map
        (·.relations.map fun r => (r.source, r.target)) = some [
          (⟨"table_1", "col_2"⟩, ⟨"table_3", "y"⟩),
          (⟨"table_3", "col_4"⟩, ⟨"table_1", "col_2"⟩)] := by decide +kernel
  rw [hids] at htables
  rw [hdown] at hs
  rw [ht] at hplaces halone
  rw [hs] at htogether
  exact ⟨IdSource.counting_total, foreword_plain, hb, hst, s, t, ds, ht, hs, htables, hplaces,
    Option.some.inj halone, Option.some.inj htogether⟩

end Dbml
