import Dbml.Proofs.BrokenHeader
import Dbml.Proofs.StatementOrder

/-!
# Layout

What a text of tables says does not depend on how it is laid out: on the letter case of its words,
on the blanks between the parts of a column's line, on comments, and on the filler around the other
parts. The layouts of tables are described by a grammar on texts; the canonical text is one of them.

The reader passes over filler in three ways. Blanks, newlines and comments are skipped alike between
the parts of a header and in front of a line, only blanks are skipped within a line, and behind a
column the rest of its line is dropped. Each has a lemma of its own here.

Results:
* `Filler.skipFiller`, `LineRest.dropLine`: filler and the rest of a line are passed over, whatever
  stands in their comments;
* `SettingsLayout.readColumnSettings`, `BodyLayout.lines`, `TableLayout.item?`: settings, lines and
  tables are read back from any layout;
* `layout_schema`: the canonical text of tables is one of their layouts;
* `parse_layout`: every layout of tables gives what their canonical text gives.
-/
namespace Dbml

open Text Outline Canonical

/-! ## Layouts -/

/-- Blanks, newlines and comments that end. -/
inductive Filler : List Char → Prop
  | nil : Filler []
  | gap {c : Char} {f : List Char} (hc : isGap c = true) (hf : Filler f) : Filler (c :: f)
  | slashComment {w f : List Char} (hn : '\n' ∉ w) (hf : Filler f) :
    Filler ('/' :: '/' :: (w ++ '\n' :: f))
  | hashComment {w f : List Char} (hn : '\n' ∉ w) (hf : Filler f) :
    Filler ('#' :: (w ++ '\n' :: f))
  | blockComment {w f : List Char} (hw : ¬['*', '/'] <:+: w) (hf : Filler f) :
    Filler ('/' :: '*' :: (w ++ '*' :: '/' :: f))

/-- Blanks within a line. -/
def Blanks (g : List Char) : Prop := ∀ c ∈ g, isInlineSpace c = true

/-- The text of a setting, its words in any letter case. -/
inductive SettingLayout : ColumnSetting → List Char → Prop
  | primaryKey {w : List Char} (hw : lower w = "pk") : SettingLayout .primaryKey w
  | notNull {v w : List Char} (hv : lower v = "not") (hw : lower w = "null") :
    SettingLayout .notNull (v ++ ' ' :: w)
  | unique {w : List Char} (hw : lower w = "unique") : SettingLayout .unique w
  | increment {w : List Char} (hw : lower w = "increment") : SettingLayout .increment w
  | defaultValue {w : List Char} (hw : lower w = "default") (v : String) :
    SettingLayout (.defaultValue v) (w ++ ':' :: ' ' :: (literal v).toList)
  | note {w : List Char} (hw : lower w = "note") (v : String) :
    SettingLayout (.note v) (w ++ ':' :: ' ' :: (literal v).toList)

/-- Settings up to the bracket that closes them, with blanks around each. -/
inductive SettingsLayout : List ColumnSetting → List Char → Prop
  | last {x : ColumnSetting} {before w after : List Char} (hb : Blanks before)
    (hw : SettingLayout x w) (ha : Blanks after) :
    SettingsLayout [x] (before ++ (w ++ (after ++ [']'])))
  | cons {x : ColumnSetting} {xs : List ColumnSetting} {before w after ws : List Char}
    (hb : Blanks before) (hw : SettingLayout x w) (ha : Blanks after)
    (hs : SettingsLayout xs ws) :
    SettingsLayout (x :: xs) (before ++ (w ++ (after ++ ',' :: ws)))

/-- Settings in brackets behind at least one blank; nothing if there are none. -/
inductive BracketsLayout : List ColumnSetting → List Char → Prop
  | none : BracketsLayout [] []
  | some {xs : List ColumnSetting} {gap w : List Char} (hne : gap ≠ []) (hg : Blanks gap)
    (hs : SettingsLayout xs w) : BracketsLayout xs (gap ++ '[' :: w)

/-- What may stand between a column and its newline: blanks, and behind at least one of them a
comment. -/
inductive LineRest : List Char → Prop
  | blanks {g : List Char} (hg : Blanks g) : LineRest g
  | slashComment {g w : List Char} (hne : g ≠ []) (hg : Blanks g) (hn : '\n' ∉ w) :
    LineRest (g ++ '/' :: '/' :: w)
  | hashComment {g w : List Char} (hne : g ≠ []) (hg : Blanks g) (hn : '\n' ∉ w) :
    LineRest (g ++ '#' :: w)

/-- The line of a column, with its newline. -/
inductive ColumnLayout (c : Column) : List Char → Prop
  | line {gap brackets rest : List Char} (hne : gap ≠ []) (hg : Blanks gap)
    (hb : BracketsLayout (columnSettings c) brackets) (hr : LineRest rest) :
    ColumnLayout c
      ((identifier c.name).toList ++ (gap ++ (c.type.toList ++ (brackets ++ (rest ++ ['\n'])))))

/-- The lines of columns up to the brace that closes their table. -/
inductive ColumnsLayout : List Column → List Char → Prop
  | nil {f : List Char} (hf : Filler f) : ColumnsLayout [] (f ++ ['}'])
  | cons {c : Column} {cs : List Column} {f w ws : List Char} (hf : Filler f)
    (hc : ColumnLayout c w) (hs : ColumnsLayout cs ws) : ColumnsLayout (c :: cs) (f ++ (w ++ ws))

/-- The note of a table, if it has one, and its columns. The note ends with its own newline. -/
inductive BodyLayout : Option String → List Column → List Char → Prop
  | none {cs : List Column} {ws : List Char} (hs : ColumnsLayout cs ws) : BodyLayout none cs ws
  | some {cs : List Column} {f w ws : List Char} (hf : Filler f) (hw : lower w = "note")
    (v : String) (hs : ColumnsLayout cs ws) :
    BodyLayout (some v) cs (f ++ (w ++ ':' :: ' ' :: ((literal v).toList ++ '\n' :: ws)))

/-- The alias of a table behind its word, if it has one. -/
inductive AliasLayout : Option String → List Char → Prop
  | none : AliasLayout none []
  | some {before between : List Char} (hne : before ≠ []) (hf : Filler before)
    (hne' : between ≠ []) (hf' : Filler between) (a : String) :
    AliasLayout (some a) (before ++ 'a' :: 's' :: (between ++ (identifier a).toList))

inductive TableLayout (t : Table) : List Char → Prop
  | table {word before al after body : List Char} (hw : lower word = "table")
    (hne : before ≠ []) (hb : Filler before) (ha : AliasLayout (nonEmpty t.aliasName) al)
    (hf : Filler after) (hs : BodyLayout (nonEmpty t.note) t.columns body) :
    TableLayout t
      (word ++ (before ++ ((identifier t.name).toList ++ (al ++ (after ++ '{' :: body)))))

/-- The texts that differ from the canonical text of some tables in nothing but their layout. -/
inductive Layout : List Table → List Char → Prop
  | nil {f : List Char} (hf : Filler f) : Layout [] f
  | cons {t : Table} {ts : List Table} {f w ws : List Char} (hf : Filler f) (ht : TableLayout t w)
    (hs : Layout ts ws) : Layout (t :: ts) (f ++ (w ++ ws))

/-! ## Filler -/

/-- A comment is skipped as filler. -/
theorem Text.skipFiller_comment {s r : List Char} (h : comment? s = some r) :
    skipFiller s = skipFiller r := by
  have hs : fillerPiece? s = comment? s := by
    unfold comment? at h
    split at h
    all_goals first | rfl | cases h
  exact skipMany_of_some (hs.trans h)

namespace Filler

theorem append {f g : List Char} (hf : Filler f) (hg : Filler g) : Filler (f ++ g) := by
  induction hf with
  | nil => exact hg
  | gap hc _ ih => exact .gap hc ih
  | slashComment hn _ ih => simpa using slashComment hn ih
  | hashComment hn _ ih => simpa using hashComment hn ih
  | blockComment hw _ ih => simpa using blockComment hw ih

/-- Filler is skipped, whatever stands in its comments. -/
theorem skipFiller {f : List Char} (h : Filler f) (s : List Char) :
    Text.skipFiller (f ++ s) = Text.skipFiller s := by
  induction h with
  | nil => rfl
  | gap hc _ ih =>
    rw [isGap, Bool.or_eq_true, beq_iff_eq] at hc
    rw [List.cons_append, skipFiller_blank hc, ih]
  | slashComment hn _ ih =>
    rw [← ih]
    simpa using skipFiller_comment (comment?_slashes hn _)
  | hashComment hn _ ih =>
    rw [← ih]
    simpa using skipFiller_comment (comment?_hash hn _)
  | blockComment hw _ ih =>
    rw [← ih]
    simpa using skipFiller_comment (comment?_closed hw _)

/-- Filler ends a word. -/
theorem endsWord {f : List Char} (h : Filler f) (hne : f ≠ []) (s : List Char) :
    wordEnds (f ++ s) = true ∧ StopsAt isWordChar (f ++ s) := by
  cases h with
  | nil => exact absurd rfl hne
  | gap hc _ =>
    simp only [isGap, isInlineSpace, Bool.or_eq_true, beq_iff_eq] at hc
    rcases hc with ((rfl | rfl) | rfl) | rfl <;> exact ⟨rfl, stopsAt_cons.2 rfl⟩
  | slashComment _ _ => exact ⟨rfl, stopsAt_cons.2 rfl⟩
  | hashComment _ _ => exact ⟨rfl, stopsAt_cons.2 rfl⟩
  | blockComment _ _ => exact ⟨rfl, stopsAt_cons.2 rfl⟩

end Filler

/-! ## Settings -/

/-- What stands in front of a text's first part ends a word if that part does. -/
theorem Text.stopsAt_of_skipInline {s r : List Char} {k : Char} (h : skipInline s = k :: r)
    (hk : isWordChar k = false) : StopsAt isWordChar s := by
  cases s with
  | nil => exact stopsAt_nil _
  | cons c s =>
    refine stopsAt_cons.2 ?_
    by_cases hc : isInlineSpace c = true
    · exact not_isWordChar_of_isInlineSpace hc
    · rw [skipInline, List.dropWhile_cons_of_neg hc] at h
      obtain ⟨rfl, -⟩ := List.cons.inj h
      exact hk

theorem Text.skipInline_word {w : List Char} (hw : isWord w = true) (s : List Char) :
    skipInline (w ++ s) = w ++ s := by
  cases w with
  | nil => cases hw
  | cons c w =>
    rw [isWord, Bool.and_eq_true] at hw
    refine skipInline_of_stopsAt (stopsAt_cons.2 (Bool.eq_false_iff.2 fun hc => ?_))
    have hnot := not_isWordChar_of_isInlineSpace hc
    rw [isWordChar_of_isWordStart hw.1] at hnot
    cases hnot

/-- A comma or a closing bracket stands behind a setting and the blanks there. -/
def GoesOn (s r : List Char) : Prop := skipInline s = ',' :: r ∨ skipInline s = ']' :: r

namespace GoesOn

variable {s r : List Char} (h : GoesOn s r)
include h

theorem stopsAt_wordChar : StopsAt isWordChar s :=
  h.elim (stopsAt_of_skipInline · rfl) (stopsAt_of_skipInline · rfl)

theorem valueEnds : valueEnds (skipInline s) = true := by
  rcases h with h | h <;> (rw [h]; rfl)

end GoesOn

/-- The words for settings are words of small letters. -/
theorem settingWords_letters : ∀ k ∈ settingWords.map Prod.fst,
    lower k.toList = k ∧ k.toList ≠ [] ∧ (k.toList.map Char.toLower).all Char.isAlpha = true := by
  decide

section SettingWords

variable {w : List Char} {k : String} (hw : lower w = k) (hk : k ∈ settingWords.map Prod.fst)
include hw hk

theorem isWord_of_settingWord : isWord w = true := by
  obtain ⟨hlower, hne, hletters⟩ := settingWords_letters k hk
  exact isWord_of_folded (hw.trans hlower.symm) hne hletters

/-- A word for a setting is looked up in any letter case. -/
theorem columnSetting?_folded {s : List Char} (hs : StopsAt isWordChar s) :
    columnSetting? (w ++ s) = some (readSettingOf (settingWords.lookup k) (skipInline s)) := by
  rw [columnSetting?_word (isWord_of_settingWord hw hk) hs, SettingWord.ofWord?, hw]

/-- A setting that is a word alone leaves what stands behind the blanks there. -/
theorem columnSetting?_flag {x : ColumnSetting}
    (hx : ∀ r, readSettingOf (settingWords.lookup k) r = (x, r)) {s r : List Char}
    (hs : GoesOn s r) :
    ∃ t, columnSetting? (w ++ s) = some (x, t) ∧ skipInline t = skipInline s := by
  refine ⟨skipInline s, ?_, skipInline_skipInline s⟩
  rw [columnSetting?_folded hw hk hs.stopsAt_wordChar, hx]

/-- A setting with a value leaves the blanks behind that value. -/
theorem columnSetting?_value {x : ColumnSetting} {v : String}
    (hx : ∀ r t, colonValue? r = some (v, t) → readSettingOf (settingWords.lookup k) r = (x, t))
    {s r : List Char} (hs : GoesOn s r) :
    ∃ t, columnSetting? (w ++ ':' :: ' ' :: (literal v).toList ++ s) = some (x, t) ∧
      skipInline t = skipInline s := by
  refine ⟨s, ?_, rfl⟩
  have hcolon : StopsAt isWordChar (':' :: ' ' :: ((literal v).toList ++ s)) :=
    stopsAt_cons.2 (by decide)
  rw [List.append_assoc, List.cons_append, List.cons_append, columnSetting?_folded hw hk hcolon,
    hx _ _ (colonValue?_literal v hs.valueEnds)]

end SettingWords

/-- A setting is read back from any layout, up to what stands behind it or the blanks there. -/
theorem SettingLayout.columnSetting? {x : ColumnSetting} {w : List Char} (h : SettingLayout x w)
    {s r : List Char} (hs : GoesOn s r) :
    ∃ t, Outline.columnSetting? (w ++ s) = some (x, t) ∧ skipInline t = skipInline s := by
  cases h with
  | primaryKey hw => exact columnSetting?_flag hw (by decide) (fun _ => rfl) hs
  | unique hw => exact columnSetting?_flag hw (by decide) (fun _ => rfl) hs
  | increment hw => exact columnSetting?_flag hw (by decide) (fun _ => rfl) hs
  | @notNull v w hv hw =>
    have hword : isWord w = true := isWord_of_settingWord hw (by decide)
    have hread := readWord_append hword hs.stopsAt_wordChar
    have hblank : skipInline (' ' :: (w ++ s)) = w ++ s := skipInline_word hword s
    refine ⟨s, ?_, rfl⟩
    rw [List.append_assoc, List.cons_append, columnSetting?_folded hv (by decide) (stopsAt_space _),
      hblank]
    show some (readSettingOf (some .not) (w ++ s)) = _
    simp only [readSettingOf, hread, hw, if_true]
  | defaultValue hw v =>
    refine columnSetting?_value hw (by decide) (fun r t hr => ?_) hs
    show readSettingOf (some .defaultValue) r = _
    simp only [readSettingOf, hr]
  | note hw v =>
    refine columnSetting?_value hw (by decide) (fun r t hr => ?_) hs
    show readSettingOf (some .note) r = _
    simp only [readSettingOf, hr]

namespace SettingsLayout

/-- Separators in front of a setting do not matter. -/
theorem columnSetting?_congr {s t : List Char} (h : skipSeparators s = skipSeparators t) :
    columnSetting? s = columnSetting? t := by
  unfold columnSetting?
  rw [h]

theorem skipSeparators_append {g : List Char} (hg : Blanks g) (s : List Char) :
    skipSeparators (g ++ s) = skipSeparators s :=
  List.dropWhile_append_of_pos fun c hc => by rw [hg c hc]; rfl

/-- A setting is read from behind any separators. What is left behind it starts with the blanks in
front of what ends it, or without them. -/
theorem columnSetting?_between {x : ColumnSetting} {before w after s t : List Char} {k : Char}
    (hk : k = ',' ∨ k = ']') (hb : Blanks before)
    (hw : ∀ {s r : List Char}, GoesOn s r →
      ∃ t, columnSetting? (w ++ s) = some (x, t) ∧ skipInline t = skipInline s)
    (ha : Blanks after)
    (ht : skipSeparators t = skipSeparators (before ++ (w ++ (after ++ k :: s)))) :
    ∃ r, columnSetting? t = some (x, r) ∧ skipSeparators r = skipSeparators (k :: s) := by
  have hend : skipInline (after ++ k :: s) = k :: s := by
    rw [skipInline_append ha]
    rcases hk with rfl | rfl <;> rfl
  have hgoes : GoesOn (after ++ k :: s) s := by
    rw [GoesOn, hend]
    simpa using hk
  obtain ⟨r, hread, hr⟩ := hw hgoes
  refine ⟨r, ?_, ?_⟩
  · rw [columnSetting?_congr ht, ← hread]
    exact columnSetting?_congr (skipSeparators_append hb _)
  · rw [← skipSeparators_skipInline r, hr, hend]

/-- Settings are read back one by one up to the bracket that closes them. The induction leaves open
which separators are still in front of the next setting. -/
theorem many_columnSetting? {xs : List ColumnSetting} {w : List Char} (h : SettingsLayout xs w)
    (s : List Char) {t : List Char} (ht : skipSeparators t = skipSeparators (w ++ s)) :
    ∃ r, many columnSetting? columnSetting?_progresses t = (xs, r) ∧
      skipSeparators r = ']' :: s := by
  induction h generalizing t with
  | @last x before w after hb hw ha =>
    obtain ⟨r, hread, hr⟩ := columnSetting?_between (s := s) (.inr rfl) hb hw.columnSetting? ha
      (by simpa using ht)
    have hend : columnSetting? r = none := by
      rw [columnSetting?_congr hr]
      rfl
    exact ⟨r, by rw [many_of_some hread, many_of_none hend], hr⟩
  | @cons x xs before w after ws hb hw ha _ ih =>
    obtain ⟨r, hread, hr⟩ := columnSetting?_between (s := ws ++ s) (.inl rfl) hb hw.columnSetting? ha
      (by simpa using ht)
    obtain ⟨u, hu, hclosing⟩ := ih hr
    exact ⟨u, by rw [many_of_some hread, hu], hclosing⟩

theorem readColumnSettings {xs : List ColumnSetting} {w : List Char} (h : SettingsLayout xs w)
    (s : List Char) : Outline.readColumnSettings (w ++ s) = (xs, s) := by
  obtain ⟨r, hread, hr⟩ := h.many_columnSetting? s rfl
  simp only [Outline.readColumnSettings, hread, Prod.map, hr]
  rfl

end SettingsLayout

/-! ## Lines -/

theorem Text.not_isTypeChar_of_isInlineSpace {c : Char} (h : isInlineSpace c = true) :
    isTypeChar c = false := by
  simp only [isInlineSpace, Bool.or_eq_true, beq_iff_eq] at h
  rcases h with (rfl | rfl) | rfl <;> rfl

namespace LineRest

/-- The rest of a line is dropped with its newline, from its front or from behind the blanks
there. -/
theorem dropLine {rest : List Char} (h : LineRest rest) (s : List Char) :
    Text.dropLine (rest ++ '\n' :: s) = s ∧
      Text.dropLine (skipInline (rest ++ '\n' :: s)) = s := by
  have hcomment : ∀ {t r : List Char}, linePiece? t = none → t.head? ≠ some '}' →
      skipLine t = r → Text.dropLine t = r := by
    intro t r hp hc hr
    rw [Text.dropLine, skipMany_of_none hp]
    split
    · exact absurd rfl hc
    · exact hr
  cases h with
  | blanks hg =>
    rw [skipInline_append hg, dropLine_append hg]
    exact ⟨dropLine_newline s, dropLine_newline s⟩
  | slashComment _ hg hn =>
    have hdrop := hcomment (t := '/' :: '/' :: _) rfl (by simp) (skipLine_append_newline
      (by simpa using hn) s)
    rw [List.append_assoc, skipInline_append hg, dropLine_append hg]
    exact ⟨hdrop, hdrop⟩
  | hashComment _ hg hn =>
    have hdrop := hcomment (t := '#' :: _) rfl (by simp) (skipLine_append_newline
      (by simpa using hn) s)
    rw [List.append_assoc, skipInline_append hg, dropLine_append hg]
    exact ⟨hdrop, hdrop⟩

/-- The rest of a line goes on with no type. -/
theorem stopsAt_typeChar {rest : List Char} (h : LineRest rest) (s : List Char) :
    StopsAt isTypeChar (rest ++ '\n' :: s) := by
  have hblank : ∀ {g : List Char}, g ≠ [] → Blanks g → ∀ t, StopsAt isTypeChar (g ++ t) :=
    fun hne hg t => stopsAt_append hne (fun c hc => not_isTypeChar_of_isInlineSpace (hg c hc)) t
  cases h with
  | blanks hg =>
    cases rest with
    | nil => exact stopsAt_cons.2 rfl
    | cons c g => exact hblank (List.cons_ne_nil c g) hg _
  | slashComment hne hg _ => rw [List.append_assoc]; exact hblank hne hg _
  | hashComment hne hg _ => rw [List.append_assoc]; exact hblank hne hg _

theorem head {rest : List Char} (h : LineRest rest) (s : List Char) :
    ∀ k ∈ (skipInline (rest ++ '\n' :: s)).head?, k = '\n' ∨ k = '/' ∨ k = '#' := by
  intro k hk
  cases h with
  | blanks hg =>
    rw [skipInline_append hg] at hk
    exact .inl (Option.some.inj hk).symm
  | slashComment _ hg _ =>
    rw [List.append_assoc, skipInline_append hg] at hk
    exact .inr (.inl (Option.some.inj hk).symm)
  | hashComment _ hg _ =>
    rw [List.append_assoc, skipInline_append hg] at hk
    exact .inr (.inr (Option.some.inj hk).symm)

end LineRest

section ColumnLines

variable {xs : List ColumnSetting} {brackets rest : List Char} (h : BracketsLayout xs brackets)
  (hr : LineRest rest) (s : List Char)
include h hr

/-- What stands behind a type goes on neither with it nor with its parameter, and it opens no block
and no note. -/
theorem BracketsLayout.behindType :
    StopsAt isTypeChar (brackets ++ (rest ++ '\n' :: s)) ∧
      ∀ k ∈ (skipInline (brackets ++ (rest ++ '\n' :: s))).head?, k ≠ '(' ∧ k ≠ ':' ∧ k ≠ '{' := by
  cases h with
  | none =>
    refine ⟨hr.stopsAt_typeChar s, fun k hk => ?_⟩
    rcases hr.head s k hk with rfl | rfl | rfl <;> decide
  | some hne hg _ =>
    rw [List.append_assoc]
    refine ⟨stopsAt_append hne (fun c hc => not_isTypeChar_of_isInlineSpace (hg c hc)) _,
      fun k hk => ?_⟩
    rw [skipInline_append hg] at hk
    obtain rfl := Option.some.inj hk
    decide

/-- Settings in brackets are read back, and the rest of their line is dropped. -/
theorem BracketsLayout.readOptionalSettings :
    ∃ u, Outline.readOptionalSettings (skipInline (brackets ++ (rest ++ '\n' :: s))) = (xs, u) ∧
      dropLine u = s := by
  cases h with
  | none =>
    refine ⟨_, ?_, (hr.dropLine s).2⟩
    unfold Outline.readOptionalSettings
    split
    · rename_i r e
      have hbracket := hr.head s '[' (by rw [← List.nil_append (rest ++ '\n' :: s), e]; rfl)
      exact absurd hbracket (by decide)
    · rfl
  | some _ hg hs =>
    refine ⟨_, ?_, (hr.dropLine s).1⟩
    rw [List.append_assoc, skipInline_append hg]
    exact hs.readColumnSettings _

end ColumnLines

/-- A column is read back from any layout of its line, whatever filler stands in front of it. -/
theorem ColumnLayout.line? {c : Column} {w : List Char} (h : ColumnLayout c w) (hc : c.EmitSafe)
    {f : List Char} (hf : Filler f) (s : List Char) :
    ∃ d, Outline.line? (f ++ (w ++ s)) = some (.column d, s) ∧ d.Shows c := by
  obtain @⟨gap, brackets, rest, hne, hg, hb, hr⟩ := h
  obtain ⟨hstop, hhead⟩ := hb.behindType hr s
  obtain ⟨t, htype, hbehind⟩ := readType_append hc.type hstop fun he => (hhead '(' he).1 rfl
  obtain ⟨u, hsettings, hdrop⟩ := hb.readOptionalSettings hr s
  have hscan := scanColumn_named hc.name hc.type.toBareType hne hg htype (hbehind ▸ hsettings)
  refine ⟨⟨c.name, c.type, t, columnSettings c⟩, ?_, rfl, rfl, rfl⟩
  have htext : (identifier c.name).toList ++
      (gap ++ (c.type.toList ++ (brackets ++ (rest ++ ['\n'])))) ++ s =
      (identifier c.name).toList ++
        (gap ++ (c.type.toList ++ (brackets ++ (rest ++ '\n' :: s)))) := by
    simp
  rw [htext, line?_named hc.name hc.line hf.skipFiller hne hg fun k hk => (hhead k hk).2]
  simp only [columnLine, readColumn, hscan, Prod.map, hdrop, id]

theorem skipFiller_closing {f : List Char} (hf : Filler f) (s : List Char) :
    skipFiller (f ++ '}' :: s) = '}' :: s := by
  rw [hf.skipFiller]
  exact skipFiller_of_stopsAt (stopsAt_cons.2 (by decide))

/-- Columns are read back line by line up to the brace that closes their table. -/
theorem ColumnsLayout.lines {cs : List Column} {w : List Char} (h : ColumnsLayout cs w)
    (hc : ∀ c ∈ cs, c.EmitSafe) (s : List Char) :
    ∃ ls r, many line? line?_progresses (w ++ s) = (ls, r) ∧ skipFiller r = '}' :: s ∧
      List.Forall₂ ShowsColumn ls cs := by
  induction h with
  | @nil f hf =>
    have hend : line? (f ++ '}' :: s) = none := by
      unfold line?
      rw [skipFiller_closing hf]
      rfl
    refine ⟨[], f ++ '}' :: s, ?_, skipFiller_closing hf s, .nil⟩
    rw [List.append_assoc]
    exact many_of_none hend
  | @cons c cs f w ws hf hline _ ih =>
    rw [List.forall_mem_cons] at hc
    obtain ⟨d, hd, hshows⟩ := hline.line? hc.1 hf (ws ++ s)
    obtain ⟨ls, r, hls, hr, hrest⟩ := ih hc.2
    refine ⟨.column d :: ls, r, ?_, hr, .cons ⟨d, rfl, hshows⟩ hrest⟩
    rw [List.append_assoc, List.append_assoc, many_of_some hd, hls]

/-- A note is read back from any layout of its line. -/
theorem line?_noteLayout {f w : List Char} (hf : Filler f) (hw : lower w = "note") (v : String)
    (s : List Char) :
    line? (f ++ (w ++ ':' :: ' ' :: ((literal v).toList ++ '\n' :: s))) = some (.note v, s) := by
  have hword : isWord w = true :=
    isWord_of_folded (k := "note".toList) (hw.trans (by decide)) (by decide) (by decide)
  have hskip := (hf.skipFiller _).trans
    (skipFiller_word hword (':' :: ' ' :: ((literal v).toList ++ '\n' :: s)))
  have hnote := readLine_note hw v s
  cases w with
  | nil => cases hword
  | cons c w =>
    have hc : c ≠ '}' := by
      rintro rfl
      revert hword
      simp [isWord, isWordStart]
    rw [line?_of_skipFiller hskip hc]
    exact congrArg some hnote

/-- The body of a table is read back from any layout. -/
theorem BodyLayout.lines {t : Table} {w : List Char}
    (h : BodyLayout (nonEmpty t.note) t.columns w) (hc : ∀ c ∈ t.columns, c.EmitSafe)
    (s : List Char) :
    ShowsBody (many line? line?_progresses (w ++ s)).1 t ∧
      skipFiller (many line? line?_progresses (w ++ s)).2 = '}' :: s := by
  generalize hnote : nonEmpty t.note = note at h
  generalize hcolumns : t.columns = cs at h
  have hbody := fun ls => @showsBody_of_columns t ls
  rw [hnote, hcolumns] at hbody
  rw [hcolumns] at hc
  cases h with
  | none hs =>
    obtain ⟨ls, r, hls, hr, hshows⟩ := hs.lines hc s
    rw [hls]
    exact ⟨hbody ls hshows, hr⟩
  | @some _ f w ws hf hw v hs =>
    obtain ⟨ls, r, hls, hr, hshows⟩ := hs.lines hc s
    have htext : f ++ (w ++ ':' :: ' ' :: ((literal v).toList ++ '\n' :: ws)) ++ s =
        f ++ (w ++ ':' :: ' ' :: ((literal v).toList ++ '\n' :: (ws ++ s))) := by
      simp
    rw [htext, many_of_some (line?_noteLayout hf hw v _), hls]
    exact ⟨hbody ls hshows, hr⟩

/-! ## Tables -/

/-- An alias is read back from any layout, up to the brace behind it. -/
theorem AliasLayout.readAlias {a : Option String} {w : List Char} (h : AliasLayout a w)
    (ha : ∀ b ∈ a, PlainName b) {f : List Char} (hf : Filler f) (table s : List Char) :
    StopsAt isWordChar (w ++ (f ++ '{' :: s)) ∧
      Outline.readAlias table (skipFiller (w ++ (f ++ '{' :: s))) = .ok (a, '{' :: s) := by
  have hopen : skipFiller (f ++ '{' :: s) = '{' :: s := by
    rw [hf.skipFiller]
    exact skipFiller_of_stopsAt (stopsAt_cons.2 (by decide))
  have hstop : StopsAt isWordChar (f ++ '{' :: s) := by
    cases f with
    | nil => exact stopsAt_cons.2 (by decide)
    | cons c f => exact (hf.endsWord (List.cons_ne_nil c f) _).2
  cases h with
  | none =>
    rw [List.nil_append, hopen]
    exact ⟨hstop, rfl⟩
  | @some before between hne hb hne' hb' a =>
    have hplain := ha a rfl
    have hname : skipFiller (between ++ ((identifier a).toList ++ (f ++ '{' :: s))) =
        (identifier a).toList ++ (f ++ '{' :: s) := by
      rw [hb'.skipFiller, skipFiller_identifier hplain.no_newline]
    have hword : skipFiller ('a' :: 's' :: (between ++ ((identifier a).toList ++ (f ++ '{' :: s)))) =
        'a' :: 's' :: (between ++ ((identifier a).toList ++ (f ++ '{' :: s))) :=
      skipFiller_of_stopsAt (stopsAt_cons.2 (by decide))
    simp only [List.append_assoc, List.cons_append]
    refine ⟨(hb.endsWord hne _).2, ?_⟩
    rw [hb.skipFiller, hword, readAlias_named hplain (hb'.endsWord hne' _).1 hname hstop, hopen]

/-- A table is read back from any layout, whatever filler stands in front of it. -/
theorem TableLayout.item? {t : Table} {w : List Char} (h : TableLayout t w) (ht : t.EmitSafe)
    {f : List Char} (hf : Filler f) (s : List Char) :
    ∃ d, Outline.item? (f ++ (w ++ s)) = some (.table (.table d), s) ∧ d.Shows t := by
  obtain @⟨word, before, al, after, body, hw, hne, hb, ha, hafter, hbody⟩ := h
  obtain ⟨hstop, halias⟩ := ha.readAlias ht.aliasName hafter t.name.toList (body ++ s)
  obtain ⟨hlines, hclosing⟩ := hbody.lines ht.columns s
  have htext : word ++ (before ++ ((identifier t.name).toList ++ (al ++ (after ++ '{' :: body)))) ++ s =
      word ++ (before ++ ((identifier t.name).toList ++ (al ++ (after ++ '{' :: (body ++ s))))) := by
    simp
  have hheader : readHeader
      (before ++ ((identifier t.name).toList ++ (al ++ (after ++ '{' :: (body ++ s))))) =
      .ok (⟨t.name, nonEmpty t.aliasName, []⟩, body ++ s) := by
    refine readHeader_named ht.name ?_ hstop halias
    rw [hb.skipFiller, skipFiller_identifier ht.name.no_newline]
  obtain ⟨d, htable, hshows⟩ := readTable_of_body hheader hlines hclosing
  refine ⟨d, ?_, hshows⟩
  have hfolded : lower word = lower "Table".toList := hw.trans (by decide)
  have hword : isWord word = true := isWord_of_folded hfolded (by decide) (by decide)
  have hskip := (hf.skipFiller _).trans (skipFiller_word hword
    (before ++ ((identifier t.name).toList ++ (al ++ (after ++ '{' :: (body ++ s))))))
  have hkey := keyword?_folded hfolded (hb.endsWord hne
    ((identifier t.name).toList ++ (al ++ (after ++ '{' :: (body ++ s))))).1
  rw [htext]
  cases word with
  | nil => cases hword
  | cons c word =>
    rw [item?_of_skipFiller hskip]
    show some (readItem (c :: word ++ _)) = _
    simp only [readItem, hkey, htable]
    rfl

/-! ## Documents -/

/-- Tables are read back from any layout, and nothing else is found. -/
theorem Layout.read {ts : List Table} {w : List Char} (h : Layout ts w)
    (ht : ∀ t ∈ ts, t.EmitSafe) : List.Forall₂ Shows (Outline.read w) (ts.map .table) := by
  induction h with
  | @nil f hf =>
    have hempty : Outline.read f = Outline.read [] := by
      rw [← List.append_nil f]
      exact read_congr (hf.skipFiller [])
    rw [hempty, read_nil]
    exact .nil
  | cons hf htable _ ih =>
    rw [List.forall_mem_cons] at ht
    obtain ⟨d, hitem, hshows⟩ := htable.item? ht.1 hf _
    rw [read_of_item? hitem, List.map_cons]
    exact .cons (.table hshows) (ih ht.2)

/-- A layout of a table holds at least the brace that opens it. -/
theorem Layout.not_blank {ts : List Table} {w : List Char} (h : Layout ts w) (hne : ts ≠ []) :
    w.all isBlank = false := by
  cases h with
  | nil => exact absurd rfl hne
  | cons _ htable _ =>
    obtain @⟨word, before, al, after, body, -, -, -, -, -, -⟩ := htable
    exact List.all_eq_false.2 ⟨'{', by simp, by decide⟩

/-! ## The canonical text -/

theorem blanks_nil : Blanks [] := by simp [Blanks]

theorem blanks_space : Blanks [' '] := by simp [Blanks, isInlineSpace]

theorem filler_space : Filler [' '] := .gap (by decide) .nil

theorem settingLayout_settings (c : Column) :
    List.Forall₂ (fun text x => SettingLayout x text.toList) (settings c) (columnSettings c) := by
  refine forall₂_settings (.primaryKey (by decide)) ?_ (.unique (by decide))
    (.increment (by decide)) (fun v => ?_) (fun v => ?_) c
  · exact .notNull (v := "not".toList) (w := "null".toList) (by decide) (by decide)
  · have h := SettingLayout.defaultValue (w := "default".toList) (by decide) v
    simpa using h
  · have h := SettingLayout.note (w := "note".toList) (by decide) v
    simpa using h

theorem settingsLayout_joined {texts : List String} {xs : List ColumnSetting}
    (h : List.Forall₂ (fun text x => SettingLayout x text.toList) texts xs) {text : String}
    {x : ColumnSetting} (hx : SettingLayout x text.toList) {before : List Char}
    (hb : Blanks before) :
    SettingsLayout (x :: xs) (before ++ ((joined ", " (text :: texts)).toList ++ [']'])) := by
  induction h generalizing text x before with
  | nil => simpa [joined] using SettingsLayout.last hb hx blanks_nil
  | @cons next _ texts _ hnext _ ih =>
    simpa [joined] using SettingsLayout.cons hb hx blanks_nil (ih hnext blanks_space)

theorem bracketsLayout_brackets (c : Column) :
    BracketsLayout (columnSettings c) (brackets (settings c)).toList := by
  have h := settingLayout_settings c
  generalize settings c = texts at h ⊢
  generalize columnSettings c = xs at h ⊢
  cases h with
  | nil => exact .none
  | cons hx h =>
    rw [toList_brackets_cons]
    exact .some (List.cons_ne_nil ' ' []) blanks_space (settingsLayout_joined h hx blanks_nil)

theorem columnsLayout_columnLines (cs : List Column) {f : List Char} (hf : Filler f) :
    ColumnsLayout cs (f ++ (columnLines cs ++ ['}'])) := by
  induction cs generalizing f with
  | nil => exact .nil hf
  | cons c cs ih =>
    have hline := ColumnLayout.line (c := c) (List.cons_ne_nil ' ' []) blanks_space
      (bracketsLayout_brackets c) (.blanks blanks_nil)
    have hindent : Filler (f ++ [' ', ' ']) := hf.append (.gap (by decide) filler_space)
    have htext : f ++ (columnLines (c :: cs) ++ ['}']) = f ++ [' ', ' '] ++
        ((identifier c.name).toList ++ ([' '] ++ (c.type.toList ++
          ((brackets (settings c)).toList ++ ([] ++ ['\n'])))) ++
            ([] ++ (columnLines cs ++ ['}']))) := by
      simp [columnLines, toList_column, columnBody]
    rw [htext]
    exact .cons hindent hline (ih .nil)

theorem bodyLayout_tableBody (t : Table) :
    BodyLayout (nonEmpty t.note) t.columns (tableBody t ++ ['}']) := by
  have hnewline : Filler ['\n'] := .gap (by decide) .nil
  rw [tableBody]
  cases hnote : nonEmpty t.note with
  | none =>
    rw [noteLines_of_none hnote]
    exact .none (columnsLayout_columnLines t.columns hnewline)
  | some v =>
    have hindent : Filler ['\n', ' ', ' '] := .gap (by decide) (.gap (by decide) filler_space)
    have hbody := BodyLayout.some hindent (w := "note".toList) (by decide) v
      (columnsLayout_columnLines t.columns hnewline)
    rw [noteLines_of_some hnote]
    simpa [indent] using hbody

theorem tableLayout_table (t : Table) : TableLayout t (table t).toList := by
  have htext := BrokenHeader.toList_table_tail t []
  rw [List.append_nil, BrokenHeader.tableTail] at htext
  have htable := fun al ha => @TableLayout.table t "Table".toList _ al _ _ (by decide)
    (List.cons_ne_nil ' ' []) filler_space ha filler_space (bodyLayout_tableBody t)
  rw [htext]
  cases halias : nonEmpty t.aliasName with
  | none =>
    rw [aliasText_none halias]
    rw [halias] at htable
    simpa using htable [] .none
  | some a =>
    rw [aliasText_some halias]
    rw [halias] at htable
    simpa using htable _ (.some (List.cons_ne_nil ' ' []) filler_space (List.cons_ne_nil ' ' [])
      filler_space a)

theorem layout_filler_schema (t : Table) (ts : List Table) {f : List Char} (hf : Filler f) :
    Layout (t :: ts) (f ++ (schema (ofTables (t :: ts))).toList) := by
  induction ts generalizing t f with
  | nil =>
    rw [toList_ofTables, behindTable]
    exact .cons hf (tableLayout_table t) (.nil .nil)
  | cons u us ih =>
    have hgap : Filler ['\n', '\n'] := .gap (by decide) (.gap (by decide) .nil)
    rw [toList_ofTables, behindTable]
    exact .cons hf (tableLayout_table t) (ih u hgap)

/-- The canonical text of tables is one of their layouts. -/
theorem layout_schema {ts : List Table} (hne : ts ≠ []) :
    Layout ts (schema (ofTables ts)).toList := by
  obtain ⟨t, ts, rfl⟩ := List.exists_cons_of_ne_nil hne
  have h := layout_filler_schema t ts .nil
  rwa [List.nil_append] at h

/-! ## Parsing -/

/-- Every layout of tables that are safe to emit is read without faults and gives the schema that
their canonical text gives. -/
theorem parse_layout {σ : Type} {source : IdSource σ} (hs : source.Total) (st : σ)
    {ts : List Table} (hne : ts ≠ []) (ht : ∀ t ∈ ts, t.EmitSafe) {text : String}
    (hl : Layout ts text.toList) :
    parse source st text =
        ⟨some (ofTables (handOut (ts.map Table.kept)
          (source.idsFor (ts.flatMap Table.idKinds) st))), []⟩ ∧
      parse source st text = parse source st (schema (ofTables ts)) := by
  have hparse : ∀ {text : String}, Layout ts text.toList → parse source st text =
      ⟨some (ofTables (handOut (ts.map Table.kept)
        (source.idsFor (ts.flatMap Table.idKinds) st))), []⟩ := by
    intro text h
    have hshows := h.read ht
    refine parse_tables_of_shows hs st (h.not_blank hne) ?_
    rw [withoutStray_of_shows hshows]
    exact hshows
  exact ⟨hparse hl, (hparse hl).trans (hparse (layout_schema hne)).symm⟩

def sumColumn : Column where
  id := "a"
  name := "sum"
  type := "decimal(10, 2)"
  constraints := { pk := some true, notNull := some true }
  defaultValue := some "\x7d"
  note := some "x\n, y"

def noteColumn : Column := { id := "b", name := "note", type := "int" }

/-- A table whose note and one of whose settings go over several lines. -/
def payroll : Table where
  id := "t"
  name := "user list"
  aliasName := some "u"
  note := some "it's\n[a]"
  columns := [sumColumn, noteColumn]

def journal : Table := { id := "v", name := "orders" }

/-- A layout of these tables with brackets, braces and quotes in its comments. -/
def unevenText : String :=
  "/*\x7b*/tABLE#'\n\x60user list\x60//[\n\tas /**/u\r\n\x7b NOTE: 'it\\'s\n[a]'\n" ++
  "sum\t decimal(10, 2) [ PK ,Not Null,\tDefault: '\x7d' , nOTE: 'x\n, y'] //\x7d[\n" ++
  "#\x7d\n note\tint #\n/*:*/\x7d//\nTABLE\torders\n\x7b\n\x7d\n"

theorem layout_unevenText : Layout [payroll, journal] unevenText.toList := by
  have hspace : Filler [' '] := filler_space
  have htab : Filler ['\t'] := .gap (by decide) .nil
  have hnewline : Filler ['\n'] := .gap (by decide) .nil
  have hblank : Blanks ['\t'] := by simp [Blanks, isInlineSpace]
  have hsettings : SettingsLayout (columnSettings sumColumn) _ :=
    .cons blanks_space (.primaryKey (w := ['P', 'K']) (by decide)) blanks_space
      (.cons blanks_nil (.notNull (v := "Not".toList) (w := "Null".toList) (by decide) (by decide))
        blanks_nil
        (.cons hblank (.defaultValue (w := "Default".toList) (by decide) "\x7d") blanks_space
          (.last blanks_space (.note (w := "nOTE".toList) (by decide) "x\n, y") blanks_nil)))
  have hsum := ColumnLayout.line (c := sumColumn)
    (List.cons_ne_nil '\t' [' ']) (by simp [Blanks, isInlineSpace])
    (.some (List.cons_ne_nil ' ' []) blanks_space hsettings)
    (.slashComment (w := ['}', '[']) (List.cons_ne_nil ' ' []) blanks_space (by decide))
  have hnote := ColumnLayout.line (c := noteColumn)
    (List.cons_ne_nil '\t' []) hblank .none
    (.hashComment (w := []) (List.cons_ne_nil ' ' []) blanks_space (by decide))
  have hlists := @TableLayout.table payroll "tABLE".toList _ _ _ _ (by decide)
    (List.cons_ne_nil '#' _) (.hashComment (w := ['\'']) (by decide) .nil)
    (.some (List.cons_ne_nil '/' _) (.slashComment (w := ['[']) (by decide) htab)
      (List.cons_ne_nil ' ' _) (.gap (by decide) (.blockComment (w := []) (by decide) .nil)) "u")
    (.gap (c := '\r') (by decide) hnewline)
    (.some hspace (w := "NOTE".toList) (by decide) "it's\n[a]"
      (.cons .nil hsum (.cons (.hashComment (w := ['}']) (by decide) hspace) hnote
        (.nil (.blockComment (w := [':']) (by decide) .nil)))))
  have horders := @TableLayout.table journal "TABLE".toList _ _ _ _ (by decide)
    (List.cons_ne_nil '\t' []) htab .none hnewline (.none (.nil hnewline))
  have htext := Layout.cons (.blockComment (w := ['{']) (by decide) .nil) hlists
    (.cons (.slashComment (w := []) (by decide) .nil) horders (.nil hnewline))
  exact Eq.subst (motive := Layout [payroll, journal]) (by decide +kernel) htext

theorem parse_layout_unevenText :
    IdSource.counting.Total ∧ [payroll, journal] ≠ [] ∧ (∀ t ∈ [payroll, journal], t.EmitSafe) ∧
      Layout [payroll, journal] unevenText.toList ∧
      parse .counting 1 unevenText =
        ⟨some { tables := [
            { id := "table_1", name := "user list", aliasName := some "u", note := some "it's\n[a]"
              columns := [
                { id := "col_2", name := "sum", type := "decimal(10, 2)"
                  constraints := { pk := some true, notNull := some true }
                  defaultValue := some "\x7d", note := some "x\n, y" },
                { id := "col_3", name := "note", type := "int" }] },
            { id := "table_4", name := "orders" }] }, []⟩ ∧
      parse .counting 1 unevenText = parse .counting 1 (schema (ofTables [payroll, journal])) := by
  have hne : [payroll, journal] ≠ [] := List.cons_ne_nil _ _
  have hsafe : ∀ t ∈ [payroll, journal], t.EmitSafe := by decide +kernel
  have h := parse_layout IdSource.counting_total 1 hne hsafe layout_unevenText
  exact ⟨IdSource.counting_total, hne, hsafe, layout_unevenText,
    h.1.trans (by decide +kernel), h.2⟩

end Dbml
