import Dbml.Proofs.Composition
import Dbml.Proofs.Sequential

/-!
# The order of statements

References are resolved when all tables are known, and ids for relations are drawn when all text is
read. So it does not matter where the reference statements of a document stand among its tables:
only the order of the tables among themselves counts, and that of the references.

A reference statement may be written in many ways: short or with braces, its names bare or between
backticks, with blanks between its parts.

Results:
* `WrittenRefs.Plain.readRefs`: a reference statement is read as its name and its links, however it
  is written;
* `read_written`: tables and reference statements are read one by one;
* `parse_interleaved`: all ways to put reference statements among tables give one schema.
-/
namespace Dbml

open Text Outline Canonical

/-! ## References as they are written -/

/-- A name as it is written: bare or between backticks. -/
structure WrittenName where
  name : String
  quoted : Bool
  deriving DecidableEq

structure WrittenEndpoint where
  table : WrittenName
  column : WrittenName
  deriving DecidableEq

/-- A link as it is written, with what stands in front of it, behind it and around its symbol. -/
structure WrittenLink where
  before : List Char
  source : WrittenEndpoint
  left : List Char
  cardinality : Cardinality
  right : List Char
  target : WrittenEndpoint
  after : List Char
  deriving DecidableEq

/-- The part of a reference statement that holds its links. -/
inductive WrittenLinks where
  /-- One link behind a colon. -/
  | short (link : WrittenLink)
  /-- Links on lines of their own between braces, and what stands in front of the closing one. -/
  | long (links : List WrittenLink) (closing : List Char)
  deriving DecidableEq

/-- A reference statement as it is written, with what stands around its name. -/
structure WrittenRefs where
  before : List Char
  name : Option WrittenName
  after : List Char
  links : WrittenLinks
  deriving DecidableEq

namespace WrittenName

def text (n : WrittenName) : List Char :=
  if n.quoted then '\x60' :: (n.name.toList ++ ['\x60']) else n.name.toList

/-- A name that is read back from where it is written. -/
def Plain (n : WrittenName) : Prop :=
  if n.quoted then PlainName n.name else isWord n.name.toList = true

instance (n : WrittenName) : Decidable n.Plain :=
  inferInstanceAs (Decidable (if n.quoted then PlainName n.name else isWord n.name.toList = true))

end WrittenName

namespace WrittenEndpoint

def text (e : WrittenEndpoint) : List Char := e.table.text ++ '.' :: e.column.text

/-- The names that are written. -/
def names (e : WrittenEndpoint) : ColumnName := ⟨e.table.name, e.column.name⟩

structure Plain (e : WrittenEndpoint) : Prop where
  table : e.table.Plain
  column : e.column.Plain

instance (e : WrittenEndpoint) : Decidable e.Plain :=
  decidable_of_iff (e.table.Plain ∧ e.column.Plain) ⟨fun h => ⟨h.1, h.2⟩, fun h => ⟨h.1, h.2⟩⟩

end WrittenEndpoint

namespace WrittenLink

/-- The text from the first endpoint on, with a text behind it. -/
def core (l : WrittenLink) (s : List Char) : List Char :=
  l.source.text ++ (l.left ++ ((symbol l.cardinality).toList ++
    (l.right ++ (l.target.text ++ (l.after ++ s)))))

def link (l : WrittenLink) : Link := ⟨l.source.names, l.cardinality, l.target.names⟩

/-- A link that is read back from where it is written. What stands in front of it is of the given
kind, and there are blanks at most between its parts and behind it. -/
structure Plain (kind : Char → Bool) (l : WrittenLink) : Prop where
  before : ∀ c ∈ l.before, kind c = true
  source : l.source.Plain
  left : ∀ c ∈ l.left, isInlineSpace c = true
  right : ∀ c ∈ l.right, isInlineSpace c = true
  target : l.target.Plain
  after : ∀ c ∈ l.after, isInlineSpace c = true

instance (kind : Char → Bool) (l : WrittenLink) : Decidable (l.Plain kind) :=
  decidable_of_iff (l.before.all kind = true ∧ l.source.Plain ∧ l.left.all isInlineSpace = true ∧
      l.right.all isInlineSpace = true ∧ l.target.Plain ∧ l.after.all isInlineSpace = true) <| by
    simp only [List.all_eq_true]
    exact ⟨fun h => ⟨h.1, h.2.1, h.2.2.1, h.2.2.2.1, h.2.2.2.2.1, h.2.2.2.2.2⟩,
      fun h => ⟨h.before, h.source, h.left, h.right, h.target, h.after⟩⟩

end WrittenLink

namespace WrittenLinks

/-- The lines of links between braces, with a text behind them. -/
def linesText (links : List WrittenLink) (s : List Char) : List Char :=
  match links with
  | [] => s
  | [l] => l.before ++ l.core s
  | l :: m :: ls => l.before ++ l.core ('\n' :: linesText (m :: ls) s)

/-- The text of the links, with a text behind it. -/
def text (links : WrittenLinks) (s : List Char) : List Char :=
  match links with
  | short l => ':' :: (l.before ++ l.core s)
  | long ls closing => '{' :: linesText ls (closing ++ '}' :: s)

def list : WrittenLinks → List WrittenLink
  | short l => [l]
  | long ls _ => ls

def Plain : WrittenLinks → Prop
  | short l => l.Plain isInlineSpace
  | long ls closing => (∀ l ∈ ls, l.Plain isGap) ∧ ∀ c ∈ closing, isGap c = true

instance : (links : WrittenLinks) → Decidable links.Plain
  | short _ => inferInstanceAs (Decidable (WrittenLink.Plain _ _))
  | long ls closing =>
    decidable_of_iff ((∀ l ∈ ls, l.Plain isGap) ∧ closing.all isGap = true) <| by
      rw [List.all_eq_true]; rfl

end WrittenLinks

namespace WrittenRefs

/-- The text behind the word that introduces the statement, with a text behind it. -/
def tail (r : WrittenRefs) (s : List Char) : List Char :=
  r.before ++ ((r.name.map WrittenName.text).getD [] ++ (r.after ++ r.links.text s))

def text (r : WrittenRefs) : List Char := "Ref".toList ++ r.tail []

/-- A reference statement that is read back from where it is written. A bare name needs a blank in
front of it. -/
structure Plain (r : WrittenRefs) : Prop where
  before : ∀ c ∈ r.before, isInlineSpace c = true
  name : ∀ n ∈ r.name, n.Plain ∧ (n.quoted = false → r.before ≠ [])
  after : ∀ c ∈ r.after, isInlineSpace c = true
  links : r.links.Plain

instance (r : WrittenRefs) : Decidable r.Plain :=
  decidable_of_iff (r.before.all isInlineSpace = true ∧
      (∀ n ∈ r.name, n.Plain ∧ (n.quoted = false → r.before ≠ [])) ∧
      r.after.all isInlineSpace = true ∧ r.links.Plain) <| by
    simp only [List.all_eq_true]
    exact ⟨fun h => ⟨h.1, h.2.1, h.2.2.1, h.2.2.2⟩,
      fun h => ⟨h.before, h.name, h.after, h.links⟩⟩

/-- The statement that is read. -/
def item (r : WrittenRefs) : RefItem :=
  ⟨r.name.map WrittenName.name, r.links.list.map fun l => .link l.link, none⟩

/-- The relations of the statement before all tables are known. -/
def drafts (r : WrittenRefs) : List RelationDraft :=
  r.links.list.map fun l =>
    ⟨r.name.map WrittenName.name, .named l.source.names, l.cardinality, l.target.names⟩

end WrittenRefs

/-! ## Gaps -/

namespace Text

theorem skipFiller_append {w : List Char} (h : ∀ c ∈ w, isGap c = true) (s : List Char) :
    skipFiller (w ++ s) = skipFiller s :=
  skipMany_append (fun c hc _ => if_pos (h c hc)) s

theorem linePiece?_of_isInlineSpace {c : Char} (h : isInlineSpace c = true) (r : List Char) :
    linePiece? (c :: r) = some r := by
  simp only [isInlineSpace, Bool.or_eq_true, beq_iff_eq] at h
  rcases h with (rfl | rfl) | rfl <;> rfl

theorem dropLine_append {w : List Char} (h : ∀ c ∈ w, isInlineSpace c = true) (s : List Char) :
    dropLine (w ++ s) = dropLine s := by
  rw [dropLine, skipMany_append fun c hc => linePiece?_of_isInlineSpace (h c hc)]; rfl

theorem dropLine_closing (s : List Char) : dropLine ('}' :: s) = '}' :: s := by
  have h : skipMany linePiece? linePiece?_skips ('}' :: s) = '}' :: s := skipMany_of_none rfl
  rw [dropLine, h]; rfl

/-- Whether the rest of a line is dropped or not, a closing brace behind a gap is reached. -/
theorem skipFiller_dropLine_gap {w : List Char} (h : ∀ c ∈ w, isGap c = true) (s : List Char) :
    skipFiller (dropLine (w ++ '}' :: s)) = '}' :: s := by
  have hclose : skipFiller ('}' :: s) = '}' :: s :=
    skipFiller_of_stopsAt (stopsAt_cons.2 (by decide))
  induction w with
  | nil => rw [List.nil_append, dropLine_closing, hclose]
  | cons c w ih =>
    have hw : ∀ d ∈ w, isGap d = true := fun d hd => h d (List.mem_cons_of_mem c hd)
    rcases Bool.or_eq_true_iff.1 (h c List.mem_cons_self) with hc | hc
    · rw [show c :: w ++ '}' :: s = [c] ++ (w ++ '}' :: s) from rfl,
        dropLine_append (by simpa using hc)]
      exact ih hw
    · rw [beq_iff_eq.1 hc, List.cons_append, dropLine_newline, skipFiller_append hw, hclose]

end Text

/-! ## Reading names and links -/

/-- A text with which no endpoint goes on. -/
structure EndsEndpoint (s : List Char) : Prop where
  word : StopsAt isWordChar s
  dot : s.head? ≠ some '.'

theorem EndsEndpoint.cons {c : Char} (hc : isWordChar c = false) (hd : c ≠ '.') (s : List Char) :
    EndsEndpoint (c :: s) := ⟨stopsAt_cons.2 hc, by simpa using hd⟩

/-- Blanks in front of it change nothing. -/
theorem EndsEndpoint.append {w s : List Char} (hw : ∀ c ∈ w, isGap c = true)
    (h : EndsEndpoint s) : EndsEndpoint (w ++ s) := by
  cases w with
  | nil => exact h
  | cons c w =>
    have hc := hw c List.mem_cons_self
    simp only [isGap, isInlineSpace, Bool.or_eq_true, beq_iff_eq] at hc
    refine .cons ?_ ?_ (w ++ s) <;> rcases hc with ((rfl | rfl) | rfl) | rfl <;> decide

theorem isGap_of_isInlineSpace {c : Char} (h : isInlineSpace c = true) : isGap c = true := by
  simp [isGap, h]

namespace WrittenName

variable {n : WrittenName}

theorem Plain.ne_nil (h : n.Plain) : n.name.toList ≠ [] := by
  unfold Plain at h
  split at h
  · exact h.ne_nil
  · intro he; rw [he] at h; exact Bool.noConfusion h

/-- A name is read back from where it is written. -/
theorem Plain.readIdentifier (h : n.Plain) {s : List Char} (hs : StopsAt isWordChar s) :
    readIdentifier (n.text ++ s) = (n.name.toList, s) := by
  unfold Plain at h
  unfold text
  split at h
  · rename_i hq
    rw [if_pos hq, List.cons_append, List.append_assoc]
    exact readQuoted_backticks h.no_backtick h.no_newline s
  · rename_i hq
    rw [if_neg hq]
    exact readIdentifier_word h hs

theorem Plain.head (h : n.Plain) :
    ∃ c w, n.text = c :: w ∧ (isWordStart c = true ∧ n.quoted = false ∨ c = '\x60') := by
  unfold Plain at h
  unfold text
  split at h
  · rename_i hq; rw [if_pos hq]; exact ⟨_, _, rfl, .inr rfl⟩
  · rename_i hq
    rw [if_neg hq]
    cases hn : n.name.toList with
    | nil => rw [hn] at h; exact Bool.noConfusion h
    | cons c w =>
      rw [hn, isWord, Bool.and_eq_true] at h
      exact ⟨c, w, rfl, .inl ⟨h.1, by simpa using hq⟩⟩

theorem Plain.startsNoFiller (h : n.Plain) (s : List Char) :
    StopsAt startsFiller (n.text ++ s) := by
  obtain ⟨c, w, hc, hw⟩ := h.head
  rw [hc]
  exact stopsAt_cons.2 (not_startsFiller_of_isWordStart (hw.imp_left And.left))

end WrittenName

theorem stopsAt_isInlineSpace {s : List Char} (h : StopsAt startsFiller s) :
    StopsAt isInlineSpace s := by
  intro c hc
  have hf := h c hc
  simp only [startsFiller, Bool.or_eq_false_iff] at hf
  exact hf.1.1.1

/-- An endpoint is read back from where it is written. -/
theorem WrittenEndpoint.Plain.readEndpoint {e : WrittenEndpoint} (h : e.Plain) {s : List Char}
    (hs : EndsEndpoint s) : readEndpoint (e.text ++ s) = (.named e.names, s) := by
  have htable := h.table.readIdentifier (s := '.' :: (e.column.text ++ s))
    (stopsAt_cons.2 (by decide))
  have hcolumn : namePart? ('.' :: (e.column.text ++ s)) = some (e.column.name, s) := by
    simp [namePart?, h.column.readIdentifier hs.word, h.column.ne_nil]
  have hend : namePart? s = none := by
    unfold namePart?; split
    · exact absurd rfl hs.dot
    · rfl
  have hmany : many namePart? namePart?_progresses ('.' :: (e.column.text ++ s)) =
      ([e.column.name], s) := by rw [many_of_some hcolumn, many_of_none hend]
  have hnames : endpointOfNames [e.table.name, e.column.name] s = (.named e.names, s) := by
    unfold endpointOfNames; split
    · exact absurd rfl hs.dot
    · exact absurd rfl hs.dot
    · rfl
  rw [text, List.append_assoc, List.cons_append]
  unfold Outline.readEndpoint
  split
  · rename_i t ht
    obtain ⟨c, w, hc, hw⟩ := h.table.head
    rw [hc] at ht
    rw [(List.cons.inj ht).1] at hw
    rcases hw with hw | hw
    · exact absurd hw.1 (by decide)
    · exact absurd hw (by decide)
  · simp only [htable, hmany, List.isEmpty_iff, h.table.ne_nil, if_false, String.ofList_toList,
      hnames]

theorem readSymbol?_append (k : Cardinality) {s : List Char} (h : s.head? ≠ some '>') :
    readSymbol? ((symbol k).toList ++ s) = some (k, s) := by
  cases s with
  | nil => cases k <;> rfl
  | cons c s =>
    have hc : c ≠ '>' := by simpa using h
    cases k with
    | oneToMany =>
      show readSymbol? ('<' :: c :: s) = some (.oneToMany, c :: s)
      unfold readSymbol?
      split <;> simp_all
    | _ => rfl

theorem symbol_stops (k : Cardinality) (s : List Char) :
    StopsAt isInlineSpace ((symbol k).toList ++ s) ∧ EndsEndpoint ((symbol k).toList ++ s) := by
  cases k <;> exact ⟨stopsAt_cons.2 (by decide), .cons (by decide) (by decide) _⟩

namespace WrittenEndpoint

variable {e : WrittenEndpoint} (h : e.Plain) {gap : List Char}
  (hg : ∀ c ∈ gap, isInlineSpace c = true)
include h hg

/-- Blanks in front of an endpoint are skipped. -/
theorem Plain.skipInline (s : List Char) : skipInline (gap ++ (e.text ++ s)) = e.text ++ s := by
  have hblank : StopsAt isInlineSpace (e.text ++ s) := by
    rw [text, List.append_assoc]
    exact stopsAt_isInlineSpace (h.table.startsNoFiller _)
  rw [skipInline_append hg, skipInline_of_stopsAt hblank]

/-- A symbol is read back in front of an endpoint. What stands behind it is a blank or the start of
a name, and does not go on with it. -/
theorem Plain.readSymbol? (k : Cardinality) (s : List Char) :
    readSymbol? ((symbol k).toList ++ (gap ++ (e.text ++ s))) = some (k, gap ++ (e.text ++ s)) := by
  refine readSymbol?_append _ fun he => ?_
  cases gap with
  | nil =>
    obtain ⟨c, w, hc, hw⟩ := h.table.head
    rw [text, hc] at he
    obtain rfl : c = '>' := by simpa using he
    rcases hw with hw | hw
    · exact absurd hw.1 (by decide)
    · exact absurd hw (by decide)
  | cons c w =>
    obtain rfl : c = '>' := by simpa using he
    exact absurd (hg '>' List.mem_cons_self) (by decide)

end WrittenEndpoint

namespace WrittenLink

variable {kind : Char → Bool} {l : WrittenLink}

theorem Plain.startsNoFiller (h : l.Plain kind) (s : List Char) :
    StopsAt startsFiller (l.core s) := by
  rw [core, WrittenEndpoint.text, List.append_assoc]
  exact h.source.table.startsNoFiller _

/-- A link is read back from its first endpoint on. -/
theorem Plain.scanRefLine (h : l.Plain kind) {s : List Char} (hs : EndsEndpoint s) :
    scanRefLine (l.core s) = (.link l.link, l.after ++ s) := by
  have hsource := h.source.readEndpoint ((symbol_stops l.cardinality
    (l.right ++ (l.target.text ++ (l.after ++ s)))).2.append
      fun c hc => isGap_of_isInlineSpace (h.left c hc))
  have htarget := h.target.readEndpoint (hs.append fun c hc =>
    isGap_of_isInlineSpace (h.after c hc))
  have hleft : skipInline (l.left ++ ((symbol l.cardinality).toList ++
      (l.right ++ (l.target.text ++ (l.after ++ s))))) =
      (symbol l.cardinality).toList ++ (l.right ++ (l.target.text ++ (l.after ++ s))) := by
    rw [skipInline_append h.left, skipInline_of_stopsAt (symbol_stops _ _).1]
  have hright := h.target.skipInline h.right (l.after ++ s)
  have hsymbol := h.target.readSymbol? h.right l.cardinality (l.after ++ s)
  unfold Outline.scanRefLine
  rw [skipInline_of_stopsAt (stopsAt_isInlineSpace (h.startsNoFiller s)), core, hsource]
  simp only [hleft, hsymbol, hright, htarget]
  rfl

end WrittenLink

/-! ## Reading statements -/

/-- A link on a line of its own between braces is read, and the rest of its line is dropped. -/
theorem WrittenLink.Plain.blockRefLine? {l : WrittenLink} (h : l.Plain isGap) {s : List Char}
    (hs : EndsEndpoint s) :
    blockRefLine? (l.before ++ l.core s) = some (.link l.link, dropLine s) := by
  have hfiller : skipFiller (l.before ++ l.core s) = l.core s := by
    rw [skipFiller_append h.before, skipFiller_of_stopsAt (h.startsNoFiller s)]
  have hline : readRefLine (l.core s) = (.link l.link, dropLine s) := by
    rw [readRefLine, h.scanRefLine hs, Prod.map, dropLine_append h.after]; rfl
  obtain ⟨c, w, hc, hw⟩ := h.source.table.head
  have hcore : ∃ v, l.core s = c :: v := by
    rw [WrittenLink.core, WrittenEndpoint.text, hc]; exact ⟨_, rfl⟩
  obtain ⟨v, hv⟩ := hcore
  rw [hv] at hline
  unfold Outline.blockRefLine?
  rw [hfiller, hv]
  split
  · contradiction
  · rename_i he
    rw [(List.cons.inj he).1] at hw
    rcases hw with hw | hw
    · exact absurd hw.1 (by decide)
    · exact absurd hw (by decide)
  · rename_i he; rw [← he, hline]

theorem blockRefLine?_closing {w : List Char} (h : ∀ c ∈ w, isGap c = true) (s : List Char) :
    blockRefLine? (w ++ '}' :: s) = none := by
  unfold blockRefLine?
  rw [skipFiller_append h, skipFiller_of_stopsAt (stopsAt_cons.2 (by decide))]; rfl

/-- The links between braces are read line by line, up to the closing brace. -/
theorem many_blockRefLine?_written {ls : List WrittenLink} (h : ∀ l ∈ ls, l.Plain isGap)
    {closing : List Char} (hc : ∀ c ∈ closing, isGap c = true) (s : List Char) :
    (many Outline.blockRefLine? blockRefLine?_progresses
        (WrittenLinks.linesText ls (closing ++ '}' :: s))).1 = ls.map (fun l => .link l.link) ∧
      skipFiller (many Outline.blockRefLine? blockRefLine?_progresses
        (WrittenLinks.linesText ls (closing ++ '}' :: s))).2 = '}' :: s := by
  have hclose : skipFiller ('}' :: s) = '}' :: s :=
    skipFiller_of_stopsAt (stopsAt_cons.2 (by decide))
  have hend : EndsEndpoint (closing ++ '}' :: s) := (EndsEndpoint.cons (by decide) (by decide) s).append hc
  fun_induction WrittenLinks.linesText ls (closing ++ '}' :: s) with
  | case1 =>
    rw [many_of_none (blockRefLine?_closing hc s)]
    exact ⟨rfl, by rw [skipFiller_append hc, hclose]⟩
  | case2 l =>
    rw [many_of_some ((h l List.mem_cons_self).blockRefLine? hend)]
    have hstop : blockRefLine? (dropLine (closing ++ '}' :: s)) = none := by
      unfold blockRefLine?
      rw [skipFiller_dropLine_gap hc]; rfl
    rw [many_of_none hstop]
    exact ⟨rfl, skipFiller_dropLine_gap hc s⟩
  | case3 l m ls ih =>
    have hl := (h l List.mem_cons_self).blockRefLine?
      (EndsEndpoint.cons (by decide) (by decide)
        (WrittenLinks.linesText (m :: ls) (closing ++ '}' :: s)) : EndsEndpoint ('\n' :: _))
    rw [dropLine_newline] at hl
    obtain ⟨hlinks, hrest⟩ := ih fun k hk => h k (List.mem_cons_of_mem l hk)
    rw [many_of_some hl]
    exact ⟨congrArg (RefLine.link l.link :: ·) hlinks, hrest⟩

namespace WrittenRefs

variable {r : WrittenRefs}

/-- The links of a statement start with a colon or with an opening brace. -/
theorem links_head (links : WrittenLinks) (s : List Char) :
    ∃ c w, links.text s = c :: w ∧ (c = ':' ∨ c = '{') := by
  cases links with
  | short l => exact ⟨_, _, rfl, .inl rfl⟩
  | long ls closing => exact ⟨_, _, rfl, .inr rfl⟩

/-- The name of a statement is read, and the blanks around it are skipped. -/
theorem Plain.readRefName (h : r.Plain) (s : List Char) :
    readRefName (skipInline (r.tail s)) = (r.name.map WrittenName.name, r.links.text s) := by
  obtain ⟨c, w, hc, hcs⟩ := links_head r.links s
  have hlinks : skipInline (r.links.text s) = r.links.text s := by
    rw [hc]
    exact skipInline_of_stopsAt (stopsAt_cons.2 (by rcases hcs with rfl | rfl <;> decide))
  rw [tail, skipInline_append h.before]
  cases hn : r.name with
  | none =>
    simp only [Option.map_none, Option.getD_none, List.nil_append]
    rw [skipInline_append h.after, hlinks, hc]
    rcases hcs with rfl | rfl <;> rfl
  | some n =>
    have hp := (h.name n hn).1
    have hstop : StopsAt isWordChar (r.after ++ r.links.text s) := by
      have hend : EndsEndpoint (r.links.text s) := by
        rw [hc]; exact .cons (by rcases hcs with rfl | rfl <;> decide)
          (by rcases hcs with rfl | rfl <;> decide) w
      exact (hend.append fun c hc => isGap_of_isInlineSpace (h.after c hc)).word
    have hread := hp.readIdentifier hstop
    have hskip := skipInline_of_stopsAt
      (stopsAt_isInlineSpace (hp.startsNoFiller (r.after ++ r.links.text s)))
    simp only [Option.map_some, Option.getD_some, hskip]
    obtain ⟨k, v, hk, hkw⟩ := hp.head
    rw [hk] at hread ⊢
    unfold Outline.readRefName
    split
    · contradiction
    · rename_i he
      rw [(List.cons.inj he).1] at hkw
      rcases hkw with hw | hw
      · exact absurd hw.1 (by decide)
      · exact absurd hw (by decide)
    · rename_i he
      rw [(List.cons.inj he).1] at hkw
      rcases hkw with hw | hw
      · exact absurd hw.1 (by decide)
      · exact absurd hw (by decide)
    · rw [hread, Prod.map, skipInline_append h.after, hlinks]
      simp [hp.ne_nil]

/-- A reference statement is read as its name and its links, however it is written. -/
theorem Plain.readRefs (h : r.Plain) (s : List Char) :
    ∃ t, readRefs (r.tail ('\n' :: s)) = (r.item, t) ∧ skipFiller t = skipFiller s := by
  have hname := h.readRefName ('\n' :: s)
  have hlinks := h.links
  unfold Outline.readRefs
  simp only [hname]
  unfold item
  cases hl : r.links with
  | short l =>
    rw [hl] at hlinks
    have hline : readRefLine (l.before ++ l.core ('\n' :: s)) = (.link l.link, s) := by
      have hscan : scanRefLine (l.before ++ l.core ('\n' :: s)) =
          scanRefLine (l.core ('\n' :: s)) := by
        unfold Outline.scanRefLine; rw [skipInline_append hlinks.before]
      rw [readRefLine, hscan, hlinks.scanRefLine (.cons (by decide) (by decide) s), Prod.map,
        dropLine_append hlinks.after, dropLine_newline]
      rfl
    simp only [WrittenLinks.text, hline]
    exact ⟨s, rfl, rfl⟩
  | long ls closing =>
    rw [hl] at hlinks
    obtain ⟨hls, hrest⟩ := many_blockRefLine?_written hlinks.1 hlinks.2 ('\n' :: s)
    simp only [WrittenLinks.text, hls, hrest]
    exact ⟨'\n' :: s, rfl, skipFiller_newline s⟩

end WrittenRefs

/-! ## Statements among each other -/

/-- A statement as it is written: the canonical text of a table, or a reference statement. -/
inductive Written where
  | table (table : Table)
  | refs (refs : WrittenRefs)

namespace Written

/-- The text of a statement, with its newline. -/
def text : Written → List Char
  | table t => (Canonical.table t).toList ++ ['\n']
  | refs r => r.text ++ ['\n']

/-- A statement that is read back from where it is written. -/
def Plain : Written → Prop
  | table t => t.Rereadable
  | refs r => r.Plain

def table? : Written → Option Table
  | table t => some t
  | refs _ => none

def refs? : Written → Option WrittenRefs
  | table _ => none
  | refs r => some r

end Written

def writtenText (ws : List Written) : List Char := ws.flatMap Written.text

/-- Tables and reference statements put among each other, each in their own order. -/
structure Interleaves (tables : List Table) (refs : List WrittenRefs) (ws : List Written) :
    Prop where
  tables : ws.filterMap Written.table? = tables
  refs : ws.filterMap Written.refs? = refs

/-- A statement that is read says what the written one does. -/
inductive ShownBy : Item → Written → Prop
  | table {d : TableDraft} {t : Table} (h : d.Shows t) : ShownBy (.table (.table d)) (.table t)
  | refs (r : WrittenRefs) : ShownBy (.refs r.item) (.refs r)

theorem WrittenLinks.text_append (links : WrittenLinks) (s t : List Char) :
    links.text (s ++ t) = links.text s ++ t := by
  have hlines : ∀ (ls : List WrittenLink) (s t : List Char),
      linesText ls (s ++ t) = linesText ls s ++ t := by
    intro ls s t
    fun_induction linesText ls s with
    | case1 => rfl
    | case2 l => simp [linesText, WrittenLink.core]
    | case3 l m ls ih => simp [linesText, WrittenLink.core, ih]
  cases links with
  | short l => simp [WrittenLinks.text, WrittenLink.core]
  | long ls closing =>
    have h := hlines ls (closing ++ '}' :: s) t
    rw [List.append_assoc, List.cons_append] at h
    rw [WrittenLinks.text, WrittenLinks.text, h, List.cons_append]

theorem WrittenRefs.text_append (r : WrittenRefs) (s : List Char) :
    r.text ++ s = 'R' :: 'e' :: 'f' :: r.tail s := by
  have h := r.links.text_append [] s
  rw [List.nil_append] at h
  simp [WrittenRefs.text, tail, h]

/-- The word that introduces a reference statement ends where it should. -/
theorem WrittenRefs.Plain.wordEnds_tail {r : WrittenRefs} (h : r.Plain) (s : List Char) :
    wordEnds (r.tail s) = true := by
  have hspace : ∀ c, isInlineSpace c = true → wordEnds [c] = true := by
    intro c hc
    simp only [isInlineSpace, Bool.or_eq_true, beq_iff_eq] at hc
    rcases hc with (rfl | rfl) | rfl <;> rfl
  have hhead : ∀ {w : List Char} (u : List Char), (∀ c ∈ w, isInlineSpace c = true) → w ≠ [] →
      wordEnds (w ++ u) = true := by
    intro w u hw hne
    cases w with
    | nil => exact absurd rfl hne
    | cons c w => exact hspace c (hw c List.mem_cons_self)
  rw [tail]
  by_cases hb : r.before = []
  · rw [hb, List.nil_append]
    cases hn : r.name with
    | some n =>
      have hq : n.quoted = true := by
        by_contra hq
        exact (h.name n hn).2 (by simpa using hq) hb
      simp [WrittenName.text, hq]
      rfl
    | none =>
      simp only [Option.map_none, Option.getD_none, List.nil_append]
      by_cases ha : r.after = []
      · obtain ⟨c, w, hc, hcs⟩ := links_head r.links s
        rw [ha, hc]
        rcases hcs with rfl | rfl <;> rfl
      · exact hhead _ h.after ha
  · exact hhead _ h.before hb

/-- A statement is read as what it says, and what stands behind it is left. -/
theorem item?_written {w : Written} (h : w.Plain) (s : List Char) :
    ∃ i t, item? (w.text ++ s) = some (i, t) ∧ ShownBy i w ∧ skipFiller t = skipFiller s := by
  cases w with
  | table t =>
    obtain ⟨d, hd, hs⟩ := item?_table h ('\n' :: s)
    refine ⟨_, _, ?_, .table hs, skipFiller_newline s⟩
    rw [Written.text, List.append_assoc]
    exact hd
  | refs r =>
    obtain ⟨t, ht, hrest⟩ := WrittenRefs.Plain.readRefs h s
    have htable : keyword? "Table" ('R' :: 'e' :: 'f' :: r.tail ('\n' :: s)) = none := rfl
    have href : keyword? "Ref" ('R' :: 'e' :: 'f' :: r.tail ('\n' :: s)) =
        some (r.tail ('\n' :: s)) := by
      show (some (r.tail ('\n' :: s))).filter wordEnds = _
      simp [WrittenRefs.Plain.wordEnds_tail h]
    refine ⟨.refs r.item, t, ?_, .refs r, hrest⟩
    rw [Written.text, List.append_assoc, List.singleton_append, WrittenRefs.text_append,
      item?_of_skipFiller (skipFiller_of_stopsAt (stopsAt_cons.2 (by decide)))]
    simp only [readItem, htable, href, ht]
    rfl

/-- Tables and reference statements are read one by one. -/
theorem read_written {ws : List Written} (h : ∀ w ∈ ws, w.Plain) :
    List.Forall₂ ShownBy (Outline.read (writtenText ws)) ws := by
  induction ws with
  | nil => rw [writtenText, List.flatMap_nil, read_nil]; exact .nil
  | cons w ws ih =>
    obtain ⟨i, t, hi, hw, ht⟩ := item?_written (h w List.mem_cons_self) (writtenText ws)
    rw [show writtenText (w :: ws) = w.text ++ writtenText ws from rfl, read_of_item? hi,
      read_congr ht]
    exact .cons hw (ih fun v hv => h v (List.mem_cons_of_mem w hv))

/-! ## What comes of them -/

theorem WrittenRefs.events_item (r : WrittenRefs) : r.item.events = [] := by
  simp [RefItem.events, item, List.flatMap_map, RefLine.events]

theorem WrittenRefs.relations_item (r : WrittenRefs) : r.item.relations = r.drafts := by
  have hlinks : r.item.links = r.links.list.map WrittenLink.link := by
    rw [RefItem.links, item, List.filterMap_map]
    exact congrFun (List.filterMap_eq_map (f := WrittenLink.link)) _
  rw [RefItem.relations, hlinks, List.map_map]
  rfl

section Documents

variable {o : Outline} {ws : List Written} (h : List.Forall₂ ShownBy o ws)
include h

theorem faults_of_shownBy : o.faults = [] := by
  rw [faults_eq]
  induction h with
  | nil => rfl
  | cons hi _ ih =>
    rw [List.flatMap_cons, ih, List.append_nil]
    cases hi with
    | table h => exact (events_of_shows h).1
    | refs r => rw [Item.events, r.events_item]; rfl

/-- Ids are drawn for the tables only, in their order. -/
theorem itemKinds_of_shownBy :
    o.flatMap Item.idKinds = (ws.filterMap Written.table?).flatMap Table.idKinds := by
  induction h with
  | nil => rfl
  | cons hi _ ih =>
    rw [List.flatMap_cons, ih]
    cases hi with
    | table h =>
      rw [List.filterMap_cons_some (f := Written.table?) rfl, List.flatMap_cons]
      exact congrArg (· ++ _) (events_of_shows h).2
    | refs r =>
      rw [List.filterMap_cons_none (f := Written.table?) rfl, Item.idKinds, Item.events,
        r.events_item]
      rfl

theorem tables_of_shownBy {ids : List String} (hn : (o.flatMap Item.idKinds).length ≤ ids.length) :
    o.tables ids = handOut ((ws.filterMap Written.table?).map Table.kept) ids := by
  induction h generalizing ids with
  | nil => rfl
  | @cons i w o ws hi _ ih =>
    rw [List.flatMap_cons, List.length_append] at hn
    rw [tables_cons, ih (by rw [List.length_drop]; omega)]
    cases hi with
    | @table d t h =>
      have hk : (Item.table (.table d)).idKinds = (Block.table t).idKinds := (events_of_shows h).2
      have hlen : t.kept.ids.length = (Block.table t).idKinds.length := by
        rw [t.length_ids_kept, t.length_ids]; rfl
      rw [hk] at hn ⊢
      rw [build_table_of_shows h (Nat.le_of_add_right_le hn),
        List.filterMap_cons_some (f := Written.table?) rfl, List.map_cons, handOut, hlen]
      rfl
    | refs r =>
      have hk : (Item.refs r.item).idKinds = [] := by
        rw [Item.idKinds, Item.events, r.events_item]; rfl
      rw [hk, List.filterMap_cons_none (f := Written.table?) rfl]
      rfl

theorem drafts_of_shownBy {ids : List String} (hn : (o.flatMap Item.idKinds).length ≤ ids.length) :
    o.drafts ids = (ws.filterMap Written.refs?).flatMap WrittenRefs.drafts := by
  induction h generalizing ids with
  | nil => rfl
  | @cons i w o ws hi _ ih =>
    rw [List.flatMap_cons, List.length_append] at hn
    rw [drafts_cons, ih (by rw [List.length_drop]; omega)]
    cases hi with
    | @table d t h =>
      have hk : (Item.table (.table d)).idKinds = (Block.table t).idKinds := (events_of_shows h).2
      rw [hk] at hn ⊢
      rw [build_table_of_shows h (Nat.le_of_add_right_le hn)]
      rfl
    | refs r =>
      rw [List.filterMap_cons_some (f := Written.refs?) rfl, List.flatMap_cons, ← r.relations_item]
      rfl

end Documents

theorem writtenText_not_blank {ws : List Written} (h : ws ≠ []) :
    (writtenText ws).all isBlank = false := by
  cases ws with
  | nil => exact absurd rfl h
  | cons w ws =>
    rw [writtenText, List.flatMap_cons, List.all_append, Bool.and_eq_false_iff]
    refine .inl ?_
    cases w with
    | table t =>
      rw [Written.text, toList_table_append]
      rfl
    | refs r => rfl

/-- What comes of tables and reference statements, wherever the references stand. -/
def Schema.written {σ : Type} (source : IdSource σ) (st : σ) (tables : List Table)
    (refs : List WrittenRefs) : Schema :=
  let kinds := tables.flatMap Table.idKinds
  let handed := handOut (tables.map Table.kept) (source.idsFor kinds st)
  { tables := handed
    relations := drawRelations source (source.after kinds st) handed
      (refs.flatMap WrittenRefs.drafts) }

/-- The kinds of the ids that tables and reference statements take. -/
def writtenKinds (tables : List Table) (refs : List WrittenRefs) : List IdKind :=
  tables.flatMap Table.idKinds ++ (refs.flatMap WrittenRefs.drafts).map fun _ => .relation

section Interleaved

variable {tables : List Table} {refs : List WrittenRefs} (ht : ∀ t ∈ tables, t.Rereadable)
  (hr : ∀ r ∈ refs, r.Plain) {ws : List Written} (hw : Interleaves tables refs ws)
include ht hr hw

theorem plain_of_interleaves : ∀ w ∈ ws, w.Plain := by
  obtain ⟨rfl, rfl⟩ := hw
  intro w hw
  cases w with
  | table t => exact ht t (List.mem_filterMap.2 ⟨_, hw, rfl⟩)
  | refs r => exact hr r (List.mem_filterMap.2 ⟨_, hw, rfl⟩)

/-- In whatever order they stand, statements ask for the ids of the tables and then for those of the
relations. -/
theorem idKinds_read_written :
    (Outline.read (writtenText ws)).idKinds = writtenKinds tables refs := by
  have hshown := read_written (plain_of_interleaves ht hr hw)
  have hcount := length_pending_read 0 IdSource.counting_total (writtenText ws)
  have hlen : ((Outline.read (writtenText ws)).flatMap Item.idKinds).length ≤
      (readIds .counting 0 (Outline.read (writtenText ws))).length :=
    (IdSource.length_idsFor IdSource.counting_total _ 0).ge
  rw [pending, drafts_of_shownBy hshown hlen] at hcount
  obtain ⟨rfl, rfl⟩ := hw
  rw [idKinds_eq, itemKinds_of_shownBy hshown, ← hcount, writtenKinds, List.map_const']

/-- Where no id is refused, all ways to put reference statements among tables give one schema: its
tables have the ids that are drawn first, its relations those behind, and a reference finds its
table and its column whether they stand in front of it or behind it. -/
theorem parse_written {σ : Type} {source : IdSource σ} (hs : source.Total) (st : σ)
    (hws : ws ≠ []) :
    parse source st (String.ofList (writtenText ws)) =
      ⟨some (Schema.written source st tables refs), []⟩ := by
  have hblank : (String.ofList (writtenText ws)).toList.all isBlank = false := by
    rw [String.toList_ofList]; exact writtenText_not_blank hws
  have hshown := read_written (plain_of_interleaves ht hr hw)
  have hparse := parse_of_total hs st hblank
  rw [String.toList_ofList] at hparse
  obtain ⟨rfl, rfl⟩ := hw
  rw [hparse, toSchema_idsFor st hs (length_pending_read st hs _), faults_of_shownBy hshown]
  have hlen : ((Outline.read (writtenText ws)).flatMap Item.idKinds).length ≤
      (readIds source st (Outline.read (writtenText ws))).length :=
    (IdSource.length_idsFor hs _ st).ge
  rw [pending, tables_of_shownBy hshown hlen, drafts_of_shownBy hshown hlen, readIds, readState,
    itemKinds_of_shownBy hshown]
  rfl

end Interleaved

/-- With ids that are numbered from any number on, all ways to put reference statements among tables
give one schema without a fault, as long as all numbers are written that the tables and the relations
take; else none gives a schema. -/
theorem parse_interleaved (k : Int) {tables : List Table} {refs : List WrittenRefs}
    (ht : ∀ t ∈ tables, t.Rereadable) (hr : ∀ r ∈ refs, r.Plain) (hne : tables ≠ [] ∨ refs ≠ [])
    {ws : List Written} (hw : Interleaves tables refs ws) :
    (WritableFrom k (writtenKinds tables refs).length →
      parse .sequential k (String.ofList (writtenText ws)) =
        ⟨some (Schema.written .counting k tables refs), []⟩) ∧
    (¬WritableFrom k (writtenKinds tables refs).length →
      (parse .sequential k (String.ofList (writtenText ws))).schema = none) := by
  have hkinds : (Outline.read (String.ofList (writtenText ws)).toList).idKinds =
      writtenKinds tables refs := by
    rw [String.toList_ofList, idKinds_read_written ht hr hw]
  have hws : ws ≠ [] := by
    rintro rfl
    obtain ⟨rfl, rfl⟩ := hw
    rcases hne with h | h <;> exact h rfl
  rw [← hkinds]
  refine ⟨fun h => ?_, fun h => ?_⟩
  · rw [parse_sequential h, parse_written ht hr hw IdSource.counting_total k hws]
  · rw [← Option.not_isSome_iff_eq_none]
    exact fun hsome => h (parse_sequential_schema_iff.1 hsome).2

/-- A bare name. -/
def bare (name : String) : WrittenName := ⟨name, false⟩

/-- A reference statement on one line, without a name. -/
def onwards : WrittenRefs where
  before := []
  name := none
  after := []
  links := .short ⟨[' '], ⟨bare "b", bare "y"⟩, [' '], .manyToOne, [], ⟨bare "ab", bare "x"⟩, []⟩

/-- A named reference statement with a link to a table that is nowhere, and with one that starts in
the line of the opening brace. -/
def sundry : WrittenRefs where
  before := [' ']
  name := some (bare "n")
  after := []
  links := .long [
    ⟨[' '], ⟨⟨"a b", true⟩, bare "x"⟩, [], .manyToMany, ['\t'], ⟨bare "b", bare "y"⟩, [' ']⟩,
    ⟨['\n', ' '], ⟨bare "b", bare "z"⟩, [], .oneToOne, [], ⟨bare "c", ⟨"d e", true⟩⟩, []⟩] ['\n']

/-- A table that references lead to. -/
def ledger : Table where
  id := "u"
  name := "b"
  columns := [
    { id := "d", name := "y", type := "int" }, { id := "e", name := "z", type := "text" }]

theorem parse_interleaved_sundry :
    (∀ t ∈ [listing, ledger], t.EmitSafe) ∧
      (∀ r ∈ [onwards, sundry], r.Plain) ∧
      WritableFrom (-1) (writtenKinds [listing, ledger] [onwards, sundry]).length ∧
      ∀ ws ∈ [
          [Written.refs onwards, .table listing, .refs sundry, .table ledger],
          [.table listing, .table ledger, .refs onwards, .refs sundry]],
        Interleaves [listing, ledger] [onwards, sundry] ws ∧
        parse IdSource.sequential (-1) (String.ofList (writtenText ws)) =
          ⟨some {
            tables := [
              { id := "table_-1", name := "a b", aliasName := some "ab"
                columns := [{ id := "col_0", name := "x", type := "int" }] },
              { id := "table_1", name := "b"
                columns := [
                  { id := "col_2", name := "y", type := "int" },
                  { id := "col_3", name := "z", type := "text" }] }]
            relations := [
              { id := "rel_4", source := ⟨"table_1", "col_2"⟩, target := ⟨"table_-1", "col_0"⟩
                cardinality := .manyToOne },
              { id := "rel_5", name := some "n", source := ⟨"table_-1", "col_0"⟩
                target := ⟨"table_1", "col_2"⟩, cardinality := .manyToMany },
              { id := "rel_6", name := some "n", source := ⟨"table_1", "col_3"⟩
                target := ⟨"c", "d e"⟩, cardinality := .oneToOne }] }, []⟩ := by
  have htables : ∀ t ∈ [listing, ledger], t.EmitSafe := by decide
  have hrefs : ∀ r ∈ [onwards, sundry], r.Plain := by decide
  have hws : ∀ ws ∈ [
      [Written.refs onwards, .table listing, .refs sundry, .table ledger],
      [.table listing, .table ledger, .refs onwards, .refs sundry]],
      Interleaves [listing, ledger] [onwards, sundry] ws := by
    simp only [List.mem_cons, List.not_mem_nil, or_false]
    rintro ws (rfl | rfl) <;> exact ⟨rfl, rfl⟩
  have hwritable : WritableFrom (-1) (writtenKinds [listing, ledger] [onwards, sundry]).length := by
    show ∀ i : Nat, i < 8 → Writable (-1 + i)
    decide
  refine ⟨htables, hrefs, hwritable, fun ws h => ⟨hws ws h, ?_⟩⟩
  have hparse := parse_interleaved (-1) (fun t ht => (htables t ht).rereadable) hrefs
    (.inl (by decide)) (hws ws h)
  exact (hparse.1 hwritable).trans (by decide)

/-- A table with one column, as it is written in `small`. -/
def smallTable : Table where
  id := "s"
  name := "t"
  columns := [{ id := "c", name := "a", type := "int" }]

/-- Numbering does not go on without an end: from the last number on that is written, a table alone
is reported to have no ids. -/
theorem not_parse_interleaved :
    (∀ t ∈ [smallTable], t.EmitSafe) ∧ Interleaves [smallTable] [] [.table smallTable] ∧
      (parse .sequential lastNumber (String.ofList (writtenText [.table smallTable]))).diagnostics ≠
        [] := by
  have htext : String.ofList (writtenText [.table smallTable]) = small := by decide
  rw [htext, parse_small writable_lastNumber.1 writable_lastNumber.2]
  exact ⟨by decide, ⟨rfl, rfl⟩, List.cons_ne_nil _ _⟩

end Dbml
