import Dbml.Outline.Table
import Dbml.Proofs.PlainType
import Dbml.Schema.OfOutline
import Mathlib.Data.List.Forall2

/-!
# Column lines read back

The canonical line of a column holds its name, its type and its settings. Read back, it gives a
draft that shows the column (`ColumnDraft.Shows`): the settings that the canonical form writes, in
its order, and nothing else.

Results:
* `readColumnSettings_joined`: settings between commas are read back one by one;
* `line?_column`: the line of a column is read back as that column, if its name is plain, its type
  is plain and its line is not taken for that of a note or of a block.
-/
namespace Dbml

/-- Text that is set and not empty. -/
def nonEmpty : Option String → Option String
  | some v => if v = "" then none else some v
  | none => none

/-- A flag that is set where a condition holds. -/
def flagOf (b : Bool) : Option Bool := if b then some true else none

/-- What the canonical form of a column keeps of it, its id apart. -/
def Column.kept (c : Column) : Column where
  id := c.id
  name := c.name
  type := c.type
  constraints :=
    { pk := flagOf c.constraints.isPrimaryKey
      unique := flagOf (isSet c.constraints.unique)
      notNull := flagOf (isSet c.constraints.notNull)
      increment := flagOf (isSet c.constraints.increment) }
  defaultValue := c.defaultValue
  note := nonEmpty c.note

/-- A column whose line starts like that of a note or of a block of notes or indexes. -/
def Column.LooksSpecial (c : Column) : Prop :=
  Text.lower c.name.toList = "note" ∧
      ((Text.skipInline c.type.toList).head? = some ':' ∨
        (Text.skipInline c.type.toList).head? = some '{') ∨
    Text.lower c.name.toList = "indexes" ∧ (Text.skipInline c.type.toList).head? = some '{'

instance (c : Column) : Decidable c.LooksSpecial := inferInstanceAs (Decidable (_ ∨ _))

/-- The type of a column is read back where the column's line has it: a plain type anywhere, one with
an unclosed parameter where no settings follow. -/
def Column.TypeRereads (c : Column) : Prop :=
  Outline.PlainType c.type.toList ∨
    Canonical.settings c = [] ∧ Outline.OpenType c.type.toList

/-- A column whose canonical line is read back as that column. -/
structure Column.Rereadable (c : Column) : Prop where
  name : Canonical.PlainName c.name
  type : c.TypeRereads
  line : ¬c.LooksSpecial

theorem Column.TypeRereads.bare {c : Column} (h : c.TypeRereads) :
    Outline.BareType c.type.toList := by
  rcases h with h | h
  · exact h.toBareType
  · exact h.2.toBareType

namespace Canonical

open Text Outline

/-! ## Settings -/

/-- The settings that the canonical form writes for a column. -/
def columnSettings (c : Column) : List ColumnSetting :=
  (if c.constraints.isPrimaryKey then [.primaryKey] else [])
    ++ (if isSet c.constraints.notNull then [.notNull] else [])
    ++ (if isSet c.constraints.unique then [.unique] else [])
    ++ (if isSet c.constraints.increment then [.increment] else [])
    ++ (match c.defaultValue with
      | some v => [.defaultValue v]
      | none => [])
    ++ (match c.note with
      | some v => if v = "" then [] else [.note v]
      | none => [])

/-- A text that goes on after a setting: with a comma or a closing bracket. -/
def AfterSetting (s : List Char) : Prop := ∃ r, s = ',' :: r ∨ s = ']' :: r

/-- A text is read back as a setting. -/
def ReadsAs (text : String) (setting : ColumnSetting) : Prop :=
  ∀ s, AfterSetting s → columnSetting? (text.toList ++ s) = some (setting, s)

namespace AfterSetting

variable {s : List Char} (h : AfterSetting s)
include h

theorem stopsAt_wordChar : StopsAt isWordChar s := by
  obtain ⟨r, rfl | rfl⟩ := h <;> exact stopsAt_cons.2 rfl

theorem skipInline_eq : skipInline s = s := by
  obtain ⟨r, rfl | rfl⟩ := h <;> rfl

theorem valueEnds : valueEnds (skipInline s) = true := by
  rw [h.skipInline_eq]; obtain ⟨r, rfl | rfl⟩ := h <;> rfl

end AfterSetting

theorem columnSetting?_word {w s : List Char} (hw : isWord w = true) (hs : StopsAt isWordChar s) :
    columnSetting? (w ++ s) = some (readSettingOf (SettingWord.ofWord? w) (skipInline s)) := by
  have hr := readWord_append hw hs
  cases w with
  | nil => simp [isWord] at hw
  | cons c w =>
    have hc : isWordStart c = true := by
      rw [isWord, Bool.and_eq_true] at hw; exact hw.1
    have hsep : (isInlineSpace c || c == ',') = false ∧ endsSettings c = false := by
      constructor <;> by_contra hx <;>
        simp only [isInlineSpace, endsSettings, Bool.not_eq_false, Bool.or_eq_true, beq_iff_eq]
          at hx <;>
        rcases hx with hx | rfl <;> revert hc <;> [skip; decide; skip; decide]
      · rcases hx with (rfl | rfl) | rfl <;> decide
      · subst hx; decide
    rw [List.cons_append] at hr
    simp only [List.cons_append, columnSetting?, skipSeparators, List.dropWhile_cons, hsep.1,
      hsep.2, Bool.false_eq_true, if_false, readSetting, hr]

theorem readsAs_pk : ReadsAs "pk" .primaryKey := by
  intro s hs
  have hk : SettingWord.ofWord? "pk".toList = some .primaryKey := by decide
  rw [columnSetting?_word (by decide) hs.stopsAt_wordChar, hk, hs.skipInline_eq]; rfl

theorem readsAs_unique : ReadsAs "unique" .unique := by
  intro s hs
  have hk : SettingWord.ofWord? "unique".toList = some .unique := by decide
  rw [columnSetting?_word (by decide) hs.stopsAt_wordChar, hk, hs.skipInline_eq]; rfl

theorem readsAs_increment : ReadsAs "increment" .increment := by
  intro s hs
  have hk : SettingWord.ofWord? "increment".toList = some .increment := by decide
  rw [columnSetting?_word (by decide) hs.stopsAt_wordChar, hk, hs.skipInline_eq]; rfl

theorem readsAs_notNull : ReadsAs "not null" .notNull := by
  intro s hs
  have hk : SettingWord.ofWord? "not".toList = some .not := by decide
  have hn : skipInline (' ' :: ("null".toList ++ s)) = "null".toList ++ s := rfl
  have hw := readWord_append (w := "null".toList) (by decide) hs.stopsAt_wordChar
  have hl : lower "null".toList = "null" := by decide
  have hsplit : "not null".toList ++ s = "not".toList ++ ' ' :: ("null".toList ++ s) := rfl
  rw [hsplit, columnSetting?_word (by decide) (stopsAt_cons.2 (by decide)), hk, hn]
  simp only [readSettingOf, hw, hl, if_true]

theorem colonValue?_literal (v : String) {s : List Char} (hs : valueEnds (skipInline s) = true) :
    colonValue? (skipInline (':' :: ' ' :: ((literal v).toList ++ s))) = some (v, s) := by
  have hb : skipInline (' ' :: ((literal v).toList ++ s)) = (literal v).toList ++ s := by
    rw [toList_literal]; rfl
  have hv : readValue ((literal v).toList ++ s) = (v.toList, s) := by
    have hq := readQuoted_literal v hs
    rw [toList_literal] at hq ⊢
    exact hq
  have hc : skipInline (':' :: ' ' :: ((literal v).toList ++ s)) =
      ':' :: ' ' :: ((literal v).toList ++ s) := rfl
  rw [hc, colonValue?, hb, hv]
  simp

theorem readsAs_default (v : String) : ReadsAs ("default: " ++ literal v) (.defaultValue v) := by
  intro s hs
  have hk : SettingWord.ofWord? "default".toList = some .defaultValue := by decide
  have hsplit : ("default: " ++ literal v).toList ++ s =
      "default".toList ++ ':' :: ' ' :: ((literal v).toList ++ s) := by simp
  rw [hsplit, columnSetting?_word (by decide) (stopsAt_cons.2 (by decide)), hk]
  simp only [readSettingOf, colonValue?_literal v hs.valueEnds]

theorem readsAs_note (v : String) : ReadsAs ("note: " ++ literal v) (.note v) := by
  intro s hs
  have hk : SettingWord.ofWord? "note".toList = some .note := by decide
  have hsplit : ("note: " ++ literal v).toList ++ s =
      "note".toList ++ ':' :: ' ' :: ((literal v).toList ++ s) := by simp
  rw [hsplit, columnSetting?_word (by decide) (stopsAt_cons.2 (by decide)), hk]
  simp only [readSettingOf, colonValue?_literal v hs.valueEnds]

theorem forall₂_ite {α β : Type} {R : α → β → Prop} {a : α} {b : β} (h : R a b) (p : Bool) :
    List.Forall₂ R (if p then [a] else []) (if p then [b] else []) := by
  cases p
  · exact .nil
  · exact .cons h .nil

/-- What relates every kind of setting to its canonical text relates those of a column. -/
theorem forall₂_settings {R : String → ColumnSetting → Prop} (hpk : R "pk" .primaryKey)
    (hnotNull : R "not null" .notNull) (hunique : R "unique" .unique)
    (hincrement : R "increment" .increment)
    (hdefault : ∀ v, R ("default: " ++ literal v) (.defaultValue v))
    (hnote : ∀ v, R ("note: " ++ literal v) (.note v)) (c : Column) :
    List.Forall₂ R (settings c) (columnSettings c) := by
  unfold settings columnSettings
  refine List.rel_append (List.rel_append (List.rel_append (List.rel_append (List.rel_append
    (forall₂_ite hpk _) (forall₂_ite hnotNull _)) (forall₂_ite hunique _))
    (forall₂_ite hincrement _)) ?_) ?_
  · cases c.defaultValue with
    | none => exact .nil
    | some v => exact .cons (hdefault v) .nil
  · cases c.note with
    | none => exact .nil
    | some v =>
      dsimp only; split
      · exact .nil
      · exact .cons (hnote v) .nil

theorem readsAs_settings (c : Column) : List.Forall₂ ReadsAs (settings c) (columnSettings c) :=
  forall₂_settings readsAs_pk readsAs_notNull readsAs_unique readsAs_increment readsAs_default
    readsAs_note c

theorem columnSetting?_bracket (s : List Char) : columnSetting? (']' :: s) = none := rfl

/-- The separator in front of the first setting may be any that `columnSetting?` passes over, since
further settings stand behind one. -/
theorem many_columnSetting {text : String} {setting : ColumnSetting} {texts : List String}
    {ss : List ColumnSetting} (ht : ReadsAs text setting) (h : List.Forall₂ ReadsAs texts ss)
    (sep : List Char) (hsep : ∀ s, columnSetting? (sep ++ s) = columnSetting? s) (s : List Char) :
    many columnSetting? columnSetting?_progresses
        (sep ++ ((joined ", " (text :: texts)).toList ++ ']' :: s)) =
      (setting :: ss, ']' :: s) := by
  induction h generalizing text setting sep with
  | nil =>
    rw [joined, many_of_some ((hsep _).trans (ht _ ⟨s, .inr rfl⟩)),
      many_of_none (columnSetting?_bracket s)]
  | @cons next _ texts _ hn _ ih =>
    have hsplit : (joined ", " (text :: next :: texts)).toList ++ ']' :: s =
        text.toList ++ ',' :: ' ' :: ((joined ", " (next :: texts)).toList ++ ']' :: s) := by
      simp [joined]
    have hrest := ih hn [',', ' '] fun _ => rfl
    rw [List.cons_append, List.cons_append, List.nil_append] at hrest
    rw [hsplit, many_of_some ((hsep _).trans (ht _ ⟨_, .inl rfl⟩)), hrest]

/-- Settings between commas are read back up to the closing bracket. -/
theorem readColumnSettings_joined {texts : List String} {ss : List ColumnSetting}
    (h : List.Forall₂ ReadsAs texts ss) (s : List Char) :
    readColumnSettings ((joined ", " texts).toList ++ ']' :: s) = (ss, s) := by
  cases h with
  | nil =>
    have := many_of_none (p := columnSetting?_progresses) (columnSetting?_bracket s)
    rw [joined, readColumnSettings, String.toList_empty, List.nil_append, this]; rfl
  | cons ht h =>
    have := many_columnSetting ht h [] (fun _ => rfl) s
    rw [List.nil_append] at this
    rw [readColumnSettings, this]; rfl

theorem toList_brackets_cons (t : String) (ts : List String) :
    (brackets (t :: ts)).toList = ' ' :: '[' :: ((joined ", " (t :: ts)).toList ++ [']']) := by
  simp [brackets]

theorem readOptionalSettings_brackets {texts : List String} {ss : List ColumnSetting}
    (h : List.Forall₂ ReadsAs texts ss) (s : List Char) :
    readOptionalSettings (skipInline ((brackets texts).toList ++ '\n' :: s)) =
      (ss, '\n' :: s) := by
  cases h with
  | nil => rfl
  | @cons t _ ts _ ht h =>
    have hb : skipInline ((brackets (t :: ts)).toList ++ '\n' :: s) =
        '[' :: ((joined ", " (t :: ts)).toList ++ ']' :: '\n' :: s) := by
      rw [toList_brackets_cons]; simp [skipInline, isInlineSpace]
    rw [hb, readOptionalSettings, readColumnSettings_joined (.cons ht h)]

/-- What follows the type on a column's line goes on neither with a run nor with a parameter. -/
theorem brackets_stops (texts : List String) (s : List Char) :
    StopsAt isTypeChar ((brackets texts).toList ++ '\n' :: s) ∧
      (skipInline ((brackets texts).toList ++ '\n' :: s)).head? ≠ some '(' := by
  cases texts with
  | nil => exact ⟨stopsAt_cons.2 rfl, by simp [brackets, skipInline, isInlineSpace]⟩
  | cons t ts =>
    rw [toList_brackets_cons]
    exact ⟨stopsAt_cons.2 rfl, by simp [skipInline, isInlineSpace]⟩

end Canonical

/-- A draft says of a column what its canonical line says. -/
structure Outline.ColumnDraft.Shows (d : Outline.ColumnDraft) (c : Column) : Prop where
  name : d.name = c.name
  type : d.type = c.type
  settings : d.settings = Canonical.columnSettings c

namespace Canonical

open Text Outline

/-! ## Lines -/

/-- The line of a column without its indentation. -/
def columnBody (c : Column) : List Char :=
  (identifier c.name).toList ++ ' ' :: (c.type.toList ++ (brackets (settings c)).toList)

theorem toList_column (c : Column) : (column c).toList = ' ' :: ' ' :: columnBody c := by
  simp [column, indent, columnBody]

theorem skipInline_columnType {gap type : List Char} (hg : ∀ k ∈ gap, isInlineSpace k = true)
    (h : BareType type) (s : List Char) : skipInline (gap ++ (type ++ s)) = type ++ s := by
  rw [skipInline_append hg]
  obtain ⟨c, r, rfl, hc⟩ := h.head
  have hi : isInlineSpace c = false := by
    cases hi : isInlineSpace c with
    | false => rfl
    | true => simp [isTypeChar, hi] at hc
  exact skipInline_of_stopsAt (stopsAt_cons.2 hi)

theorem readType_columnType {c : Column} (h : c.TypeRereads) (s : List Char) :
    ∃ t, readType (c.type.toList ++ ((brackets (settings c)).toList ++ '\n' :: s)) =
        (c.type.toList, t) ∧
      skipInline t = skipInline ((brackets (settings c)).toList ++ '\n' :: s) := by
  rcases h with h | ⟨he, h⟩
  · obtain ⟨hstop, hpar⟩ := brackets_stops (settings c) s
    exact readType_append h hstop hpar
  · rw [he]
    exact ⟨_, readType_open h (by simp [brackets]), rfl⟩

/-- Blanks behind a name end it. -/
theorem stopsAt_gap {gap : List Char} (hne : gap ≠ []) (hg : ∀ k ∈ gap, isInlineSpace k = true)
    (s : List Char) : StopsAt isWordChar (gap ++ s) :=
  stopsAt_append hne (fun k hk => not_isWordChar_of_isInlineSpace (hg k hk)) s

/-- A column is scanned from its name and its type, whatever blanks stand between them, to where
its settings end. -/
theorem scanColumn_named {name type : String} {xs : List ColumnSetting} (hn : PlainName name)
    (ht : BareType type.toList) {gap rest t u : List Char} (hne : gap ≠ [])
    (hg : ∀ k ∈ gap, isInlineSpace k = true)
    (htype : readType (type.toList ++ rest) = (type.toList, t))
    (hsettings : readOptionalSettings (skipInline t) = (xs, u)) :
    scanColumn ((identifier name).toList ++ (gap ++ (type.toList ++ rest))) =
      (.ok ⟨name, type, t, xs⟩, u) := by
  have hname := readIdentifier_identifier hn.no_backtick hn.no_newline
    (stopsAt_gap hne hg (type.toList ++ rest))
  simp only [scanColumn, hname, skipInline_columnType hg ht, htype, hsettings, List.isEmpty_iff,
    hn.ne_nil, ht.ne_nil, if_false, String.ofList_toList]

theorem scanColumn_columnBody {c : Column} (hn : PlainName c.name) (ht : c.TypeRereads)
    (s : List Char) :
    ∃ d, scanColumn (columnBody c ++ '\n' :: s) = (.ok d, '\n' :: s) ∧ d.Shows c := by
  obtain ⟨t, hrt, hti⟩ := readType_columnType ht s
  have hs := readOptionalSettings_brackets (readsAs_settings c) s
  have hbody : columnBody c ++ '\n' :: s = (identifier c.name).toList ++
      ([' '] ++ (c.type.toList ++ ((brackets (settings c)).toList ++ '\n' :: s))) := by
    simp [columnBody]
  have hscan := @scanColumn_named _ _ _ hn ht.bare [' '] _ _ _ (by simp) (by simp [isInlineSpace])
    hrt (hti ▸ hs)
  rw [hbody]
  exact ⟨_, hscan, rfl, rfl, rfl⟩

theorem dropLine_newline (s : List Char) : dropLine ('\n' :: s) = s := by
  have h : skipMany linePiece? linePiece?_skips ('\n' :: s) = '\n' :: s := skipMany_of_none rfl
  rw [dropLine, h]; rfl

theorem readWord_identifier {name : String} (hn : '\n' ∉ name.toList) {s : List Char}
    (hs : StopsAt isWordChar s) :
    readWord ((identifier name).toList ++ s) =
      if isWord name.toList then (name.toList, s) else ([], (identifier name).toList ++ s) := by
  cases h : isWord name.toList with
  | true =>
    rw [toList_identifier_of_isWord h hn, if_pos rfl]
    exact readWord_append h hs
  | false =>
    rw [toList_identifier_of_not_isWord h hn, if_neg Bool.false_ne_true]
    exact readWord_of_stopsAt (stopsAt_cons.2 (by decide))

theorem head?_skipInline_append (w s : List Char) :
    (skipInline (w ++ s)).head? = (skipInline w).head? ∨
      (skipInline (w ++ s)).head? = (skipInline s).head? := by
  unfold skipInline
  rw [List.dropWhile_append]
  cases h : w.dropWhile isInlineSpace with
  | nil => exact .inr rfl
  | cons c r => exact .inl rfl

theorem head?_skipInline_brackets (texts : List String) (s : List Char) :
    (skipInline ((brackets texts).toList ++ '\n' :: s)).head? = some '[' ∨
      (skipInline ((brackets texts).toList ++ '\n' :: s)).head? = some '\n' := by
  cases texts with
  | nil => exact .inr rfl
  | cons t ts => rw [toList_brackets_cons]; exact .inl rfl

/-- A name and a type are taken neither for a note nor for a block, whatever blanks stand between
them, if what follows the type does not open one. -/
theorem wordLine?_named {c : Column} (hn : '\n' ∉ c.name.toList) (h : ¬c.LooksSpecial)
    {gap rest : List Char} (hne : gap ≠ []) (hg : ∀ k ∈ gap, isInlineSpace k = true)
    (hrest : ∀ k ∈ (skipInline rest).head?, k ≠ ':' ∧ k ≠ '{') :
    let s := (identifier c.name).toList ++ (gap ++ (c.type.toList ++ rest))
    wordLine? (lower (readWord s).1) s (skipInline (readWord s).2) = none := by
  dsimp only
  rw [readWord_identifier hn (stopsAt_gap hne hg _)]
  split
  · simp only [Column.LooksSpecial, not_or, not_and] at h
    have hhead : ∀ k, k = ':' ∨ k = '{' → (skipInline c.type.toList).head? ≠ some k →
        ∀ t, skipInline (gap ++ (c.type.toList ++ rest)) ≠ k :: t := by
      intro k hk hne t he
      rw [skipInline_append hg] at he
      have hfront := congrArg List.head? he
      rcases head?_skipInline_append c.type.toList rest with ht | ht
      · exact hne (ht.symm.trans hfront)
      · have := hrest k (ht.symm.trans hfront)
        exact hk.elim this.1 this.2
    unfold wordLine?
    split
    · rename_i hw
      split
      · rename_i e
        rcases hw with hw | hw
        · exact absurd e (hhead '{' (.inr rfl) (h.2 hw) _)
        · exact absurd e (hhead '{' (.inr rfl) (h.1 hw).2 _)
      · rename_i e
        rw [if_neg fun hw => hhead ':' (.inl rfl) (h.1 hw).1 _ e]
      · rfl
    · rfl
  · exact wordLine?_nil _ _

theorem line?_of_skipFiller {s r : List Char} {c : Char} (h : skipFiller s = c :: r)
    (hc : c ≠ '}') : line? s = some (readLine (c :: r)) := by
  unfold line?
  rw [h]
  split
  · contradiction
  · rename_i e; exact absurd (List.cons.inj e).1 hc
  · rename_i e; rw [e]

/-- A plain name and a type are read as the line of a column, unless they are taken for another one,
whatever filler stands in front of them. -/
theorem line?_named {c : Column} (hn : PlainName c.name) (hl : ¬c.LooksSpecial)
    {before gap rest : List Char} (hb : ∀ s, skipFiller (before ++ s) = skipFiller s)
    (hne : gap ≠ []) (hg : ∀ k ∈ gap, isInlineSpace k = true)
    (hrest : ∀ k ∈ (skipInline rest).head?, k ≠ ':' ∧ k ≠ '{') :
    line? (before ++ ((identifier c.name).toList ++ (gap ++ (c.type.toList ++ rest)))) =
      some (columnLine ((identifier c.name).toList ++ (gap ++ (c.type.toList ++ rest)))) := by
  have hw := wordLine?_named hn.no_newline hl hne hg hrest
  obtain ⟨k, w, hk, hkw⟩ := identifier_head hn.no_newline
  dsimp only at hw
  rw [hk, List.cons_append] at hw ⊢
  have hhead : k ≠ '}' ∧ k ≠ '/' := by
    constructor <;> (rintro rfl; revert hkw; decide)
  have hf : skipFiller (before ++ k :: (w ++ (gap ++ (c.type.toList ++ rest)))) =
      k :: (w ++ (gap ++ (c.type.toList ++ rest))) :=
    (hb _).trans (skipFiller_of_stopsAt (stopsAt_cons.2 (not_startsFiller_of_isWordStart hkw)))
  rw [line?_of_skipFiller hf hhead.1, readLine_of_ne_slash hhead.2, hw, Option.getD_none]

/-- The canonical line of a column with a plain name is read as the line of a column, unless it is
taken for another one. -/
theorem line?_columnBody {c : Column} (hn : PlainName c.name) (hl : ¬c.LooksSpecial)
    (s : List Char) :
    line? ((column c).toList ++ '\n' :: s) = some (columnLine (columnBody c ++ '\n' :: s)) := by
  have hbody : columnBody c ++ '\n' :: s = (identifier c.name).toList ++
      ([' '] ++ (c.type.toList ++ ((brackets (settings c)).toList ++ '\n' :: s))) := by
    simp [columnBody]
  rw [toList_column, List.cons_append, List.cons_append, hbody]
  refine @line?_named c hn hl [' ', ' '] _ _ (fun t => ?_) (by simp) (by simp [isInlineSpace])
    fun k hk => ?_
  · exact (skipFiller_space _).trans (skipFiller_space t)
  · rcases head?_skipInline_brackets (settings c) s with hs | hs <;>
      (rw [hs] at hk; obtain rfl := Option.some.inj hk; decide)

/-- The canonical line of a column is read back as that column. -/
theorem line?_column {c : Column} (h : c.Rereadable) (s : List Char) :
    ∃ d, line? ((column c).toList ++ '\n' :: s) = some (.column d, s) ∧ d.Shows c := by
  obtain ⟨d, hd, hs⟩ := scanColumn_columnBody h.name h.type s
  have hc : columnLine (columnBody c ++ '\n' :: s) = (.column d, s) := by
    simp [columnLine, readColumn, hd, dropLine_newline]
  exact ⟨d, by rw [line?_columnBody h.name h.line, hc], hs⟩

/-! ## The column of a draft -/

/-- A draft that shows a column gives what the canonical form keeps of it. -/
theorem toColumn_of_shows {d : ColumnDraft} {c : Column} (h : d.Shows c) (id : String) :
    d.toColumn id = { c.kept with id } := by
  rw [ColumnDraft.toColumn, h.name, h.type, h.settings, columnSettings, Column.kept]
  generalize c.constraints.isPrimaryKey = pk
  generalize isSet c.constraints.notNull = notNull
  generalize isSet c.constraints.unique = unique
  generalize isSet c.constraints.increment = increment
  have hflags : List.foldl ColumnSetting.apply { id, name := c.name, type := c.type }
      ((if pk then [ColumnSetting.primaryKey] else []) ++
        (if notNull then [ColumnSetting.notNull] else []) ++
        (if unique then [ColumnSetting.unique] else []) ++
        (if increment then [ColumnSetting.increment] else [])) =
      { id, name := c.name, type := c.type
        constraints :=
          { pk := flagOf pk, unique := flagOf unique, notNull := flagOf notNull
            increment := flagOf increment } } := by
    cases pk <;> cases notNull <;> cases unique <;> cases increment <;> rfl
  rw [List.foldl_append, List.foldl_append, hflags]
  cases c.defaultValue with
  | none =>
    cases c.note with
    | none => rfl
    | some v => by_cases hv : v = "" <;> simp [hv, nonEmpty, ColumnSetting.apply]
  | some w =>
    cases c.note with
    | none => rfl
    | some v => by_cases hv : v = "" <;> simp [hv, nonEmpty, ColumnSetting.apply]

theorem reference_not_mem_columnSettings (c : Column) (target : Option InlineRef) :
    .reference target ∉ columnSettings c := by
  intro h
  simp only [columnSettings, List.mem_append] at h
  rcases h with ((((h | h) | h) | h) | h) | h
  · split at h <;> simp at h
  · split at h <;> simp at h
  · split at h <;> simp at h
  · split at h <;> simp at h
  · split at h <;> simp at h
  · split at h
    · split at h <;> simp at h
    · simp at h

/-- A draft that shows a column makes no reference. -/
theorem reference?_of_shows {d : ColumnDraft} {c : Column} (h : d.Shows c) :
    d.reference? = none := by
  rw [ColumnDraft.reference?, h.settings, List.findSome?_eq_none_iff]
  intro x hx
  cases x with
  | reference target => exact absurd hx (reference_not_mem_columnSettings c target)
  | _ => rfl

end Canonical

end Dbml
