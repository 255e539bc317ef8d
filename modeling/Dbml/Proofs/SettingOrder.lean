import Dbml.Proofs.Layout
import Dbml.Proofs.References

/-!
# Column settings in any order

The settings of a column are read one after the other, each from its own word. What they say of the
column depends neither on their order nor on the letter case of their words nor on the blanks
between their parts. A reference is the exception: it ends the settings, so it stands last.

Results:
* `apply_ofSettings`, `toColumn_eq`: what settings say, as a function of which of them there are;
* `ofSettings_perm`: it is the same in any order;
* `SettingText.columnSetting?`: a setting is read from any of its texts, and reading stops in front
  of what ends it or of the blanks there;
* `SettingsText.readColumnSettings`: so are settings up to their closing bracket;
* `parse_settings`: a column with settings in any order and any layout.
-/
namespace Dbml

open Text Outline Canonical

/-! ## What settings say -/

namespace Outline.ColumnSetting

/-- The default value that a setting gives. -/
def default? : ColumnSetting → Option String
  | .defaultValue v => some v
  | _ => none

/-- The note that a setting gives. -/
def note? : ColumnSetting → Option String
  | .note v => some v
  | _ => none

def isReference : ColumnSetting → Bool
  | .reference _ => true
  | _ => false

end Outline.ColumnSetting

/-- The column that settings describe: a flag is set if a setting for it is there, and nothing else
unsets it. Of several values the last one counts. -/
def Column.ofSettings (id name type : String) (xs : List ColumnSetting) : Column where
  id := id
  name := name
  type := type
  constraints :=
    { pk := flagOf (ColumnSetting.primaryKey ∈ xs)
      fk := flagOf (xs.any ColumnSetting.isReference)
      unique := flagOf (ColumnSetting.unique ∈ xs)
      notNull := flagOf (ColumnSetting.notNull ∈ xs)
      nullable := flagOf (ColumnSetting.nullable ∈ xs)
      increment := flagOf (ColumnSetting.increment ∈ xs) }
  defaultValue := (xs.filterMap ColumnSetting.default?).getLast?
  note := (xs.filterMap ColumnSetting.note?).getLast?

/-- One more setting changes the described column as it says. -/
theorem apply_ofSettings (id name type : String) (xs : List ColumnSetting) (x : ColumnSetting) :
    x.apply (Column.ofSettings id name type xs) = Column.ofSettings id name type (xs ++ [x]) := by
  cases x <;>
    simp [ColumnSetting.apply, Column.ofSettings, ColumnSetting.default?, ColumnSetting.note?,
      ColumnSetting.isReference, flagOf, List.getLast?_append]

/-- The column of a draft is the one that its settings describe. -/
theorem toColumn_eq (d : ColumnDraft) (id : String) :
    d.toColumn id = Column.ofSettings id d.name d.type d.settings := by
  rw [ColumnDraft.toColumn]
  induction d.settings using List.reverseRecOn with
  | nil => rfl
  | append_singleton xs x ih =>
    rw [List.foldl_append, ih]
    exact apply_ofSettings id d.name d.type xs x

/-- There is one order of one element at most. -/
theorem eq_of_perm_of_length_le_one {α : Type} {xs ys : List α} (h : ys.Perm xs)
    (hl : xs.length ≤ 1) : ys = xs := by
  match xs, hl with
  | [], _ => exact h.eq_nil
  | [x], _ => exact List.perm_singleton.1 h

/-- Settings describe the same column in any order, if at most one of them gives a default value and
at most one a note. -/
theorem ofSettings_perm {xs ys : List ColumnSetting} (h : ys.Perm xs)
    (hd : (xs.filterMap ColumnSetting.default?).length ≤ 1)
    (hn : (xs.filterMap ColumnSetting.note?).length ≤ 1) (id name type : String) :
    Column.ofSettings id name type ys = Column.ofSettings id name type xs := by
  have hdefault := eq_of_perm_of_length_le_one (h.filterMap ColumnSetting.default?) hd
  have hnote := eq_of_perm_of_length_le_one (h.filterMap ColumnSetting.note?) hn
  simp only [Column.ofSettings, h.mem_iff, h.any_eq, hdefault, hnote]

/-! ## Texts of settings -/

/-- The text of a value in quotes. In single quotes it may go over several lines. -/
inductive QuotedText : String → List Char → Prop
  | single {w : List Char} (hw : FirstFreeQuote (w ++ ['\'']) w.length) :
    QuotedText (String.ofList (unescaped w)) ('\'' :: (w ++ ['\'']))
  | double {w : List Char} (hw : isLineText '"' w = true) :
    QuotedText (String.ofList (unescaped w)) ('"' :: (w ++ ['"']))
  | backticks {w : List Char} (hq : '\x60' ∉ w) (hn : '\n' ∉ w) :
    QuotedText (String.ofList w) ('\x60' :: (w ++ ['\x60']))
  | triple {w : List Char} (hw : ¬['\'', '\'', '\''] <:+: w) (hl : w.getLast? ≠ some '\'') :
    QuotedText (String.ofList w) ('\'' :: '\'' :: '\'' :: (w ++ ['\'', '\'', '\'']))

/-- A character of a value that stands without quotes. -/
def isBareChar (c : Char) : Bool := !isQuote c && !endsSetting c

/-- The text of a value. Without quotes, the white space at its ends does not count. -/
inductive ValueText : String → List Char → Prop
  | bare {w : List Char} (hw : ∀ c ∈ w, isBareChar c = true) :
    ValueText (String.ofList (trim w)) w
  | quoted {v : String} {w : List Char} (hw : QuotedText v w) : ValueText v w

/-- A value behind a colon, with blanks around the colon. -/
inductive ColonText (v : String) : List Char → Prop
  | colon {before between w : List Char} (hb : Blanks before) (hb' : Blanks between)
    (hw : ValueText v w) : ColonText v (before ++ ':' :: (between ++ w))

/-- The text of a setting, its words in any letter case. A word that is none of the settings' words
says nothing, with a value or without. -/
inductive SettingText : ColumnSetting → List Char → Prop
  | primaryKey {w : List Char} (hw : lower w = "pk" ∨ lower w = "primary" ∨ lower w = "primarykey") :
    SettingText .primaryKey w
  | primaryKeyWords {v g w : List Char} (hv : lower v = "primary") (hne : g ≠ [])
    (hg : Blanks g) (hw : lower w = "key") : SettingText .primaryKey (v ++ (g ++ w))
  | notNull {v g w : List Char} (hv : lower v = "not") (hne : g ≠ []) (hg : Blanks g)
    (hw : lower w = "null") : SettingText .notNull (v ++ (g ++ w))
  | nullable {w : List Char} (hw : lower w = "null") : SettingText .nullable w
  | unique {w : List Char} (hw : lower w = "unique") : SettingText .unique w
  | increment {w : List Char} (hw : lower w = "increment" ∨ lower w = "autoincrement") :
    SettingText .increment w
  | defaultValue {w t : List Char} {v : String} (hw : lower w = "default") (ht : ColonText v t) :
    SettingText (.defaultValue v) (w ++ t)
  | note {w t : List Char} {v : String} (hw : lower w = "note") (ht : ColonText v t) :
    SettingText (.note v) (w ++ t)
  | unknown {w : List Char} (hw : isWord w = true) (hu : SettingWord.ofWord? w = none) :
    SettingText .other w
  | unknownValue {w t : List Char} {v : String} (hw : isWord w = true)
    (hu : SettingWord.ofWord? w = none) (ht : ColonText v t) : SettingText .other (w ++ t)

/-- The text of a reference, with whatever stands behind it up to the bracket. -/
inductive ReferenceText : InlineRef → List Char → Prop
  | reference {w before between gap r : List Char} {k : Cardinality} {e : WrittenEndpoint}
    (hw : lower w = "ref") (hb : Blanks before) (hb' : Blanks between) (hg : Blanks gap)
    (he : e.Plain) (hend : EndsEndpoint (r ++ [']'])) (hr : ∀ c ∈ r, endsSettings c = false) :
    ReferenceText ⟨k, e.names⟩
      (w ++ (before ++ ':' :: (between ++ ((symbol k).toList ++ (gap ++ (e.text ++ r))))))

/-- Settings up to the bracket that closes them, with blanks around each, and perhaps a reference
behind them. -/
inductive SettingsText : List ColumnSetting → Option InlineRef → List Char → Prop
  | closed {gap : List Char} (hg : Blanks gap) : SettingsText [] none (gap ++ [']'])
  | last {x : ColumnSetting} {before w after : List Char} (hb : Blanks before)
    (hw : SettingText x w) (ha : Blanks after) :
    SettingsText [x] none (before ++ (w ++ (after ++ [']'])))
  | reference {ref : InlineRef} {before w : List Char} (hb : Blanks before)
    (hw : ReferenceText ref w) : SettingsText [] (some ref) (before ++ (w ++ [']']))
  | cons {x : ColumnSetting} {xs : List ColumnSetting} {ref : Option InlineRef}
    {before w after ws : List Char} (hb : Blanks before) (hw : SettingText x w) (ha : Blanks after)
    (hs : SettingsText xs ref ws) :
    SettingsText (x :: xs) ref (before ++ (w ++ (after ++ ',' :: ws)))

/-- The settings that a reference adds. -/
def referenceSettings (ref : Option InlineRef) : List ColumnSetting :=
  (ref.map fun r => .reference (some r)).toList

/-- The line of a column with settings in brackets, with its newline. -/
inductive SettingsLine (name type : String) (xs : List ColumnSetting) (ref : Option InlineRef) :
    List Char → Prop
  | line {gap gap' w rest : List Char} (hne : gap ≠ []) (hg : Blanks gap) (hg' : Blanks gap')
    (hs : SettingsText xs ref w) (hr : LineRest rest) :
    SettingsLine name type xs ref
      ((identifier name).toList ++ (gap ++ (type.toList ++ (gap' ++ '[' :: (w ++ (rest ++ ['\n']))))))

/-! ## Reading values -/

namespace Text

/-- What is escaped at a place is decided by the text in front of it. -/
theorem escaped_append {s : List Char} (t : List Char) {k : Nat} (hk : k ≤ s.length) :
    Escaped (s ++ t) k ↔ Escaped s k := by
  induction k with
  | zero => exact Iff.rfl
  | succ k ih =>
    have hget : (s ++ t)[k]? = s[k]? := List.getElem?_append_left hk
    show (s ++ t)[k]? = _ ∧ ¬Escaped (s ++ t) k ↔ s[k]? = _ ∧ ¬Escaped s k
    rw [hget, ih (by omega)]

/-- The first free quote of a text stays the first with more text behind it. -/
theorem FirstFreeQuote.append {s : List Char} {q : Nat} (h : FirstFreeQuote s q) (t : List Char) :
    FirstFreeQuote (s ++ t) q := by
  have hq := h.lt_length
  have hfree : ∀ k ≤ q, FreeQuote (s ++ t) k ↔ FreeQuote s k := by
    intro k hk
    rw [FreeQuote, FreeQuote, escaped_append t (by omega), List.getElem?_append_left (by omega)]
  refine ⟨(hfree q (Nat.le_refl q)).2 h.1, ?_⟩
  intro k hk hf
  exact h.2 k hk ((hfree k (by omega)).1 hf)

theorem isBareChar_of_isInlineSpace {c : Char} (h : isInlineSpace c = true) :
    isBareChar c = true := by
  simp only [isInlineSpace, Bool.or_eq_true, beq_iff_eq] at h
  rcases h with (rfl | rfl) | rfl <;> rfl

theorem trim_blanks_append {g : List Char} (hg : Blanks g) (w : List Char) :
    trim (g ++ w) = trim w := by
  have hblank : ∀ c ∈ g, isBlank c = true := fun c hc => isBlank_of_isInlineSpace (hg c hc)
  rw [trim, trim, trimOf, trimOf, List.dropWhile_append_of_pos hblank]

theorem trim_append_blanks {g : List Char} (hg : Blanks g) (w : List Char) :
    trim (w ++ g) = trim w := by
  induction g generalizing w with
  | nil => rw [List.append_nil]
  | cons c g ih =>
    rw [Blanks, List.forall_mem_cons] at hg
    rw [List.append_cons, ih hg.2, trim_append_blank (isBlank_of_isInlineSpace hg.1)]

/-- A value without quotes is read up to what ends it, and trimmed. -/
theorem readValue_bare {w r : List Char} {k : Char} (hw : ∀ c ∈ w, isBareChar c = true)
    (hk : k = ',' ∨ k = ']') : readValue (w ++ k :: r) = (trim w, k :: r) := by
  have hends : StopsAt (!endsSetting ·) (k :: r) := by
    rcases hk with rfl | rfl <;> exact stopsAt_cons.2 rfl
  have hchars : ∀ c ∈ w, (!endsSetting c) = true := by
    intro c hc
    have hbare := hw c hc
    simp only [isBareChar, Bool.and_eq_true] at hbare
    exact hbare.2
  obtain ⟨htake, hdrop⟩ := span_append hchars hends
  have hread : ∀ {c : Char} {t : List Char}, isQuote c = false → readValue (c :: t) =
      (trim ((c :: t).takeWhile (!endsSetting ·)), (c :: t).dropWhile (!endsSetting ·)) := by
    intro c t hc
    rw [readValue, hc]
    rfl
  cases w with
  | nil =>
    have hquote : isQuote k = false := by rcases hk with rfl | rfl <;> rfl
    rw [List.nil_append] at htake hdrop ⊢
    rw [hread hquote, htake, hdrop]
  | cons c w =>
    have hquote : isQuote c = false := by
      have hbare := hw c List.mem_cons_self
      simp only [isBareChar, Bool.and_eq_true, Bool.not_eq_true'] at hbare
      exact hbare.1
    rw [List.cons_append] at htake hdrop ⊢
    rw [hread hquote, htake, hdrop]

end Text

/-- What goes on behind a setting: blanks, and then a comma or a closing bracket. -/
theorem GoesOn.split {s r : List Char} (h : GoesOn s r) :
    ∃ g k, Blanks g ∧ (k = ',' ∨ k = ']') ∧ s = g ++ k :: r ∧ skipInline s = k :: r := by
  have hblanks : Blanks (s.takeWhile isInlineSpace) := fun c hc => List.mem_takeWhile_imp hc
  have hs : s = s.takeWhile isInlineSpace ++ skipInline s :=
    List.takeWhile_append_dropWhile.symm
  rcases h with h | h
  · exact ⟨_, ',', hblanks, .inl rfl, h ▸ hs, h⟩
  · exact ⟨_, ']', hblanks, .inr rfl, h ▸ hs, h⟩

namespace QuotedText

variable {v : String} {w : List Char} (h : QuotedText v w)
include h

theorem head : ∃ c r, w = c :: r ∧ isQuote c = true := by
  cases h with
  | single => exact ⟨_, _, rfl, rfl⟩
  | double => exact ⟨_, _, rfl, rfl⟩
  | backticks => exact ⟨_, _, rfl, rfl⟩
  | triple => exact ⟨_, _, rfl, rfl⟩

/-- A value in quotes is read back, if what follows past blanks ends a value. -/
theorem readQuoted {s : List Char} (hs : valueEnds (skipInline s) = true) :
    Text.readQuoted (w ++ s) = (v.toList, s) := by
  cases h with
  | @single w hw =>
    have hfirst : FirstFreeQuote (w ++ '\'' :: s) w.length := by
      have happend := hw.append s
      rwa [List.append_assoc] at happend
    have hend : EndsValueAt (w ++ '\'' :: s) w.length := by
      have hdrop : (w ++ '\'' :: s).drop (w.length + 1) = s := by
        rw [List.append_cons]
        exact List.drop_left' (by simp)
      rw [EndsValueAt, hdrop, hs]
    have htriple : ¬['\'', '\'', '\''] <+: '\'' :: (w ++ '\'' :: s) := by
      rintro ⟨t, ht⟩
      cases w with
      | nil =>
        obtain rfl : '\'' :: t = s := (List.cons.inj (List.cons.inj ht).2).2
        exact Bool.noConfusion hs
      | cons c w =>
        obtain rfl : '\'' = c := (List.cons.inj (List.cons.inj ht).2).1
        exact hw.2 0 (Nat.succ_pos _) ⟨rfl, id⟩
    rw [List.cons_append, List.append_assoc, List.singleton_append,
      readQuoted_of_not_triple htriple, quotedChars_closed hfirst (.inr hend)]
    simp [dropChar]
  | @double w hw =>
    rw [List.cons_append, List.append_assoc, List.singleton_append, readQuoted_of_ne (by decide),
      quotedChars_lineText (by decide) (by decide) hw]
    simp [dropChar]
  | @backticks w hq hn =>
    rw [List.cons_append, List.append_assoc, List.singleton_append, readQuoted_backticks hq hn]
    simp
  | @triple w hw hl =>
    have hread := readQuoted_triple hw hl s
    simpa using hread

end QuotedText

namespace ValueText

variable {v : String} {w : List Char} (h : ValueText v w) {s r : List Char} (hs : GoesOn s r)
include h hs

/-- A value is read back from behind the blanks in front of it. -/
theorem colonValue? {gap : List Char} (hg : Blanks gap) :
    ∃ t, Outline.colonValue? (':' :: (gap ++ (w ++ s))) = some (v, t) ∧
      skipInline t = skipInline s := by
  have hread : Outline.colonValue? (':' :: (gap ++ (w ++ s))) =
      some ((readValue (skipInline (w ++ s))).map String.ofList id) := by
    rw [Outline.colonValue?, skipInline_append hg]
  cases h with
  | bare hw =>
    obtain ⟨g, k, hblanks, hk, rfl, hskip⟩ := hs.split
    -- The blanks in front of the value are skipped and those behind it are read; both are trimmed.
    have hrun : skipInline (w ++ (g ++ k :: r)) = (w ++ g).dropWhile isInlineSpace ++ k :: r := by
      have hstop : StopsAt isInlineSpace (k :: r) :=
        stopsAt_cons.2 (by rcases hk with rfl | rfl <;> decide)
      rw [← List.append_assoc]
      exact (span_append_of_stopsAt hstop (w ++ g)).2
    have hbare : ∀ c ∈ (w ++ g).dropWhile isInlineSpace, isBareChar c = true := by
      intro c hc
      rcases List.mem_append.1 ((List.dropWhile_suffix _).mem hc) with hc | hc
      · exact hw c hc
      · exact isBareChar_of_isInlineSpace (hblanks c hc)
    have htrim : trim ((w ++ g).dropWhile isInlineSpace) = trim w := by
      have hfront : Blanks ((w ++ g).takeWhile isInlineSpace) :=
        fun c hc => List.mem_takeWhile_imp hc
      rw [← trim_blanks_append hfront, List.takeWhile_append_dropWhile, trim_append_blanks hblanks]
    refine ⟨k :: r, ?_, ?_⟩
    · rw [hread, hrun, readValue_bare hbare hk, htrim]
      rfl
    · rw [hskip]
      rcases hk with rfl | rfl <;> rfl
  | quoted hw =>
    obtain ⟨c, t, rfl, hc⟩ := hw.head
    have hblank : isInlineSpace c = false := by
      rw [Bool.eq_false_iff]
      intro hspace
      have hbare := isBareChar_of_isInlineSpace hspace
      simp [isBareChar, hc] at hbare
    refine ⟨s, ?_, rfl⟩
    rw [hread, List.cons_append, skipInline_of_stopsAt (stopsAt_cons.2 hblank), readValue, if_pos hc,
      ← List.cons_append, hw.readQuoted hs.valueEnds]
    simp

/-- A value is passed over where nothing asks for it. -/
theorem skipSetting : Text.skipSetting (w ++ s) = skipInline s := by
  have hpiece : ∀ c, isBareChar c = true → ∀ t, settingPiece? (c :: t) = some t := by
    intro c hc t
    simp only [isBareChar, Bool.and_eq_true, Bool.not_eq_true'] at hc
    simp [settingPiece?, hc.1, hc.2]
  have hrest : Text.skipSetting s = skipInline s := by
    obtain ⟨g, k, hblanks, hk, rfl, hskip⟩ := hs.split
    rw [hskip, Text.skipSetting, skipMany_append fun c hc =>
      hpiece c (isBareChar_of_isInlineSpace (hblanks c hc))]
    refine skipMany_of_none ?_
    rcases hk with rfl | rfl <;> rfl
  rw [← hrest]
  cases h with
  | bare hw => exact skipMany_append (fun c hc => hpiece c (hw c hc)) s
  | quoted hw =>
    have hread := hw.readQuoted hs.valueEnds
    obtain ⟨c, t, rfl, hc⟩ := hw.head
    refine skipMany_of_some ?_
    have hends : endsSetting c = false := by
      simp only [isQuote, Bool.or_eq_true, beq_iff_eq] at hc
      rcases hc with (rfl | rfl) | rfl <;> rfl
    rw [List.cons_append] at hread ⊢
    simp [settingPiece?, hc, hends, hread]

end ValueText

namespace ColonText

variable {v : String} {w : List Char} (h : ColonText v w)
include h

theorem stopsAt_wordChar (s : List Char) : StopsAt isWordChar (w ++ s) := by
  cases h with
  | @colon before between w hb _ _ =>
    rw [List.append_assoc]
    cases before with
    | nil => exact stopsAt_cons.2 (by decide)
    | cons c before => exact stopsAt_gap (List.cons_ne_nil c before) hb _

variable {s r : List Char} (hs : GoesOn s r)
include hs

theorem colonValue? : ∃ t, Outline.colonValue? (skipInline (w ++ s)) = some (v, t) ∧
    skipInline t = skipInline s := by
  cases h with
  | @colon before between w hb hb' hw =>
    obtain ⟨t, hread, ht⟩ := hw.colonValue? hs hb'
    refine ⟨t, ?_, ht⟩
    rw [List.append_assoc, skipInline_append hb, List.cons_append, List.append_assoc]
    exact hread

theorem skipSetting : Text.skipSetting (skipInline (w ++ s)) = skipInline s := by
  cases h with
  | @colon before between w hb hb' hw =>
    have hpiece : ∀ c ∈ ':' :: between, ∀ t, settingPiece? (c :: t) = some t := by
      intro c hc t
      rcases List.mem_cons.1 hc with rfl | hc
      · rfl
      · have hspace := hb' c hc
        simp only [isInlineSpace, Bool.or_eq_true, beq_iff_eq] at hspace
        rcases hspace with (rfl | rfl) | rfl <;> rfl
    rw [List.append_assoc, skipInline_append hb, List.cons_append, List.append_assoc,
      ← hw.skipSetting hs]
    exact skipMany_append hpiece (w ++ s)

end ColonText

/-! ## Reading settings -/

theorem isWord_key {w : List Char} (hw : lower w = "key") : isWord w = true :=
  isWord_of_folded (k := "key".toList) (hw.trans (by decide)) (by decide) (by decide)

/-- A setting of two words is read by the first, and then the second. -/
theorem columnSetting?_twoWords {v gap w s : List Char} {k : String} (hv : lower v = k)
    (hk : k ∈ settingWords.map Prod.fst) (hne : gap ≠ []) (hg : Blanks gap) (hw : isWord w = true) :
    columnSetting? (v ++ (gap ++ w) ++ s) = some (readSettingOf (settingWords.lookup k) (w ++ s)) := by
  rw [List.append_assoc, List.append_assoc, columnSetting?_folded hv hk (stopsAt_gap hne hg _),
    skipInline_append hg, skipInline_word hw]

/-- A setting is read from any of its texts, up to what stands behind it or the blanks there. -/
theorem SettingText.columnSetting? {x : ColumnSetting} {w : List Char} (h : SettingText x w)
    {s r : List Char} (hs : GoesOn s r) :
    ∃ t, Outline.columnSetting? (w ++ s) = some (x, t) ∧ skipInline t = skipInline s := by
  have hflag : ∀ {w : List Char} {k : String} {x : ColumnSetting}, lower w = k →
      k ∈ settingWords.map Prod.fst →
      readSettingOf (settingWords.lookup k) (skipInline s) = (x, skipInline s) →
      ∃ t, Outline.columnSetting? (w ++ s) = some (x, t) ∧ skipInline t = skipInline s := by
    intro w k x hw hk hx
    refine ⟨skipInline s, ?_, skipInline_skipInline s⟩
    rw [columnSetting?_folded hw hk hs.stopsAt_wordChar, hx]
  cases h with
  | primaryKey hw =>
    rcases hw with hw | hw | hw
    · exact hflag hw (by decide) rfl
    · refine hflag hw (by decide) ?_
      -- Where the word stands alone, no further word follows the blanks behind it.
      have hno : (readWord (skipInline s)).1 = [] := by
        rcases hs with hs | hs <;> (rw [hs]; rfl)
      show readSettingOf (some .primary) (skipInline s) = _
      rw [readSettingOf, hno]
      rfl
    · exact hflag hw (by decide) rfl
  | @primaryKeyWords v gap w hv hne hg hw =>
    have hword := isWord_key hw
    have hread := readWord_append hword hs.stopsAt_wordChar
    refine ⟨s, ?_, rfl⟩
    rw [columnSetting?_twoWords hv (by decide) hne hg hword]
    show some (readSettingOf (some .primary) (w ++ s)) = _
    simp only [readSettingOf, hread, hw, if_true]
  | @notNull v gap w hv hne hg hw =>
    have hword : isWord w = true := isWord_of_settingWord hw (by decide)
    have hread := readWord_append hword hs.stopsAt_wordChar
    refine ⟨s, ?_, rfl⟩
    rw [columnSetting?_twoWords hv (by decide) hne hg hword]
    show some (readSettingOf (some .not) (w ++ s)) = _
    simp only [readSettingOf, hread, hw, if_true]
  | nullable hw => exact hflag hw (by decide) rfl
  | unique hw => exact hflag hw (by decide) rfl
  | increment hw =>
    rcases hw with hw | hw
    · exact hflag hw (by decide) rfl
    · exact hflag hw (by decide) rfl
  | defaultValue hw ht =>
    obtain ⟨t, hread, hskip⟩ := ht.colonValue? hs
    refine ⟨t, ?_, hskip⟩
    rw [List.append_assoc, columnSetting?_folded hw (by decide) (ht.stopsAt_wordChar s)]
    show some (readSettingOf (some .defaultValue) _) = _
    simp only [readSettingOf, hread]
  | note hw ht =>
    obtain ⟨t, hread, hskip⟩ := ht.colonValue? hs
    refine ⟨t, ?_, hskip⟩
    rw [List.append_assoc, columnSetting?_folded hw (by decide) (ht.stopsAt_wordChar s)]
    show some (readSettingOf (some .note) _) = _
    simp only [readSettingOf, hread]
  | unknown hw hu =>
    have hgoes : GoesOn (skipInline s) r := by rwa [GoesOn, skipInline_skipInline]
    have hskip := (ValueText.bare (w := []) (by simp)).skipSetting hgoes
    rw [List.nil_append, skipInline_skipInline] at hskip
    refine ⟨skipInline s, ?_, skipInline_skipInline s⟩
    rw [columnSetting?_word hw hs.stopsAt_wordChar, hu, readSettingOf, hskip]
  | unknownValue hw hu ht =>
    refine ⟨skipInline s, ?_, skipInline_skipInline s⟩
    rw [List.append_assoc, columnSetting?_word hw (ht.stopsAt_wordChar s), hu, readSettingOf,
      ht.skipSetting hs]

/-- A reference is read back, and what stands behind it in the brackets is dropped. -/
theorem ReferenceText.columnSetting? {ref : InlineRef} {w : List Char} (h : ReferenceText ref w)
    (s : List Char) :
    Outline.columnSetting? (w ++ ']' :: s) = some (.reference (some ref), ']' :: s) := by
  obtain @⟨w, before, between, gap, rest, k, e, hw, hb, hb', hg, he, hend, hr⟩ := h
  have hends : EndsEndpoint (rest ++ ']' :: s) := by
    cases rest with
    | nil => exact .cons (by decide) (by decide) s
    | cons c rest =>
      exact .cons (stopsAt_cons.1 hend.word) (fun hc => hend.dot (congrArg some hc)) _
  have hdrop : (rest ++ ']' :: s).dropWhile (!endsSettings ·) = ']' :: s := by
    have hkept : ∀ c ∈ rest, (!endsSettings c) = true := fun c hc => by rw [hr c hc]; rfl
    exact (span_append hkept (stopsAt_cons.2 rfl)).2
  have hblank : StopsAt isInlineSpace ((symbol k).toList ++ (gap ++ (e.text ++ (rest ++ ']' :: s)))) :=
    (symbol_stops k _).1
  have href : readInlineRef (':' :: (between ++ ((symbol k).toList ++
      (gap ++ (e.text ++ (rest ++ ']' :: s)))))) = (some ⟨k, e.names⟩, rest ++ ']' :: s) := by
    simp only [readInlineRef, skipInline_append hb', skipInline_of_stopsAt hblank,
      he.readSymbol? hg k, he.skipInline hg, he.readEndpoint hends]
  have hcolon : ∀ t, StopsAt isWordChar (before ++ ':' :: t) := by
    intro t
    cases before with
    | nil => exact stopsAt_cons.2 (by decide)
    | cons c before => exact stopsAt_gap (List.cons_ne_nil c before) hb _
  simp only [List.append_assoc, List.cons_append]
  rw [columnSetting?_folded hw (by decide) (hcolon _), skipInline_append hb,
    skipInline_of_stopsAt (stopsAt_cons.2 (by decide))]
  show some (readSettingOf (some .reference) _) = _
  rw [readSettingOf, href, Prod.map, hdrop]

namespace SettingsText

/-- Settings are read back one by one up to the bracket that closes them. The induction leaves open
which separators are still in front of the next setting. -/
theorem many_columnSetting? {xs : List ColumnSetting} {ref : Option InlineRef} {w : List Char}
    (h : SettingsText xs ref w) (s : List Char) {t : List Char}
    (ht : skipSeparators t = skipSeparators (w ++ s)) :
    ∃ r, many columnSetting? columnSetting?_progresses t = (xs ++ referenceSettings ref, r) ∧
      skipSeparators r = ']' :: s := by
  have hend : ∀ {r : List Char}, skipSeparators r = ']' :: s → Outline.columnSetting? r = none := by
    intro r hr
    rw [SettingsLayout.columnSetting?_congr (t := ']' :: s) hr]
    rfl
  induction h generalizing t with
  | closed hg =>
    have hr : skipSeparators t = ']' :: s := by
      rw [ht, List.append_assoc, SettingsLayout.skipSeparators_append hg]
      rfl
    exact ⟨t, many_of_none (hend hr), hr⟩
  | @last x before w after hb hw ha =>
    obtain ⟨r, hread, hr⟩ := SettingsLayout.columnSetting?_between (s := s) (.inr rfl) hb
      hw.columnSetting? ha (by simpa using ht)
    exact ⟨r, by rw [many_of_some hread, many_of_none (hend hr)]; rfl, hr⟩
  | @reference ref before w hb hw =>
    have hread : Outline.columnSetting? t = some (.reference (some ref), ']' :: s) := by
      rw [← hw.columnSetting? s]
      refine SettingsLayout.columnSetting?_congr ?_
      rw [ht, List.append_assoc, SettingsLayout.skipSeparators_append hb]
      simp
    exact ⟨']' :: s, by rw [many_of_some hread, many_of_none (hend rfl)]; rfl, rfl⟩
  | @cons x xs ref before w after ws hb hw ha _ ih =>
    obtain ⟨r, hread, hr⟩ := SettingsLayout.columnSetting?_between (s := ws ++ s) (.inl rfl) hb
      hw.columnSetting? ha (by simpa using ht)
    obtain ⟨u, hu, hclosing⟩ := ih hr
    exact ⟨u, by rw [many_of_some hread, hu]; rfl, hclosing⟩

theorem readColumnSettings {xs : List ColumnSetting} {ref : Option InlineRef} {w : List Char}
    (h : SettingsText xs ref w) (s : List Char) :
    Outline.readColumnSettings (w ++ s) = (xs ++ referenceSettings ref, s) := by
  obtain ⟨r, hread, hr⟩ := h.many_columnSetting? s rfl
  simp only [Outline.readColumnSettings, hread, Prod.map, hr]
  rfl

end SettingsText

/-! ## Lines and tables -/

/-- Only the reference behind the settings is one. -/
theorem SettingsText.no_reference {xs : List ColumnSetting} {ref : Option InlineRef}
    {w : List Char} (h : SettingsText xs ref w) : ∀ x ∈ xs, x.isReference = false := by
  have hone : ∀ {x : ColumnSetting} {w : List Char}, SettingText x w → x.isReference = false := by
    intro x w hx
    cases hx <;> rfl
  induction h with
  | closed => simp
  | last _ hw _ => simpa using hone hw
  | reference => simp
  | cons _ hw _ _ ih => exact List.forall_mem_cons.2 ⟨hone hw, ih⟩

section Described

variable {xs ys : List ColumnSetting} (hys : ∀ x ∈ ys, x.isReference = false)
include hys

/-- A reference flags the column that the settings in front of it describe, and changes nothing
else. -/
theorem ofSettings_reference (ref : Option InlineRef) (id name type : String) :
    Column.ofSettings id name type (ys ++ referenceSettings ref) =
      { Column.ofSettings id name type ys with constraints.fk := flagOf ref.isSome } := by
  cases ref with
  | none =>
    have hany : ys.any ColumnSetting.isReference = false := by simpa using hys
    simp [referenceSettings, Column.ofSettings, hany]
  | some r => exact (apply_ofSettings id name type ys (.reference (some r))).symm

/-- The reference of a draft is the one behind its settings. -/
theorem reference?_settings (ref : Option InlineRef) (name type : String) (t : List Char) :
    (ColumnDraft.mk name type t (ys ++ referenceSettings ref)).reference? = ref := by
  have hnone : ys.findSome? ColumnSetting.target? = none := by
    rw [List.findSome?_eq_none_iff]
    intro x hx
    have hno := hys x hx
    cases x with
    | reference => cases hno
    | _ => rfl
  rw [ColumnDraft.reference?_eq, List.findSome?_append, hnone]
  cases ref <;> rfl

end Described

/-- A column is read from its line with its settings in their order, whatever filler stands in front
of the line and whatever text behind it. -/
theorem SettingsLine.line? {name type : String} {xs : List ColumnSetting} {ref : Option InlineRef}
    {line : List Char} (h : SettingsLine name type xs ref line) (hn : PlainName name)
    (ht : PlainType type.toList) (hl : ¬Column.LooksSpecial { id := "", name, type })
    {f : List Char} (hf : Filler f) (s : List Char) :
    ∃ t, Outline.line? (f ++ (line ++ s)) =
      some (.column ⟨name, type, t, xs ++ referenceSettings ref⟩, s) := by
  obtain @⟨gap, gap', w, rest, hne, hg, hg', hs, hr⟩ := h
  have hstop : StopsAt isTypeChar (gap' ++ '[' :: (w ++ (rest ++ '\n' :: s))) := by
    cases gap' with
    | nil => exact stopsAt_cons.2 rfl
    | cons c gap' => exact stopsAt_cons.2 (not_isTypeChar_of_isInlineSpace (hg' c List.mem_cons_self))
  have hskip : skipInline (gap' ++ '[' :: (w ++ (rest ++ '\n' :: s))) =
      '[' :: (w ++ (rest ++ '\n' :: s)) := skipInline_append hg' _
  obtain ⟨t, htype, hbehind⟩ := readType_append ht hstop (by rw [hskip]; simp)
  have hsettings : readOptionalSettings (skipInline t) =
      (xs ++ referenceSettings ref, rest ++ '\n' :: s) := by
    rw [hbehind, hskip]
    exact hs.readColumnSettings _
  have hscan := scanColumn_named hn ht.toBareType hne hg htype hsettings
  have hline := @line?_named { id := "", name, type } hn hl f gap
    (gap' ++ '[' :: (w ++ (rest ++ '\n' :: s))) hf.skipFiller hne hg (by rw [hskip]; simp)
  refine ⟨t, ?_⟩
  have htext : (identifier name).toList ++
      (gap ++ (type.toList ++ (gap' ++ '[' :: (w ++ (rest ++ ['\n']))))) ++ s =
      (identifier name).toList ++
        (gap ++ (type.toList ++ (gap' ++ '[' :: (w ++ (rest ++ '\n' :: s))))) := by
    simp
  rw [htext, hline]
  simp only [columnLine, readColumn, hscan, Prod.map, (hr.dropLine s).1, id]

/-- A table whose body is filled with a text up to its closing brace. -/
def tableAround (table : String) (body : List Char) : List Char :=
  "Table ".toList ++ ((identifier table).toList ++ ' ' :: '{' :: (body ++ ['}']))

/-- The schema of a table with one column, which makes a reference perhaps, given their ids. -/
def oneColumnSchema (table tableId : String) (c : Column) (ref : Option InlineRef)
    (relationIds : List String) : Schema :=
  let tables := [{ id := tableId, name := table, columns := [c] }]
  { tables
    relations := List.zipWith (fun r id =>
      { id, source := ⟨tableId, c.id⟩, target := resolve tables r.target
        cardinality := r.cardinality }) ref.toList relationIds }

/-- The ids that a table with one column draws, and those of its relation. -/
def oneColumnKinds (ref : Option InlineRef) : List IdKind :=
  [.table, .column] ++ (ref.map fun _ => IdKind.relation).toList

section OneColumn

variable {table : String} {rest : List Char} {d : ColumnDraft}

theorem events_oneColumn :
    Outline.faults [.table (.table ⟨⟨table, none, []⟩, rest, [.column d]⟩)] = [] ∧
      Outline.idKinds [.table (.table ⟨⟨table, none, []⟩, rest, [.column d]⟩)] =
        oneColumnKinds d.reference? := by
  refine ⟨by rw [faults_eq]; rfl, ?_⟩
  rw [idKinds_eq, oneColumnKinds]
  have hcount : relationCount [.table (.table ⟨⟨table, none, []⟩, rest, [.column d]⟩)] =
      d.reference?.toList.length := by
    show ([d].filterMap ColumnDraft.reference?).length + 0 = _
    cases h : d.reference? <;> simp [h]
  rw [hcount]
  cases d.reference? <;> rfl

theorem toSchema_oneColumn (tableId columnId : String) (relationIds : List String) :
    Outline.toSchema [.table (.table ⟨⟨table, none, []⟩, rest, [.column d]⟩)]
        (tableId :: columnId :: relationIds) =
      oneColumnSchema table tableId (d.toColumn columnId) d.reference? relationIds := by
  have hid : (d.toColumn columnId).id = columnId := by
    rw [toColumn_eq]
    rfl
  have hrelations : ∀ tables, List.zipWith (RelationDraft.toRelation tables)
      ([d.relation? tableId columnId].filterMap id) relationIds =
      List.zipWith (fun r id =>
        { id, source := ⟨tableId, columnId⟩, target := resolve tables r.target
          cardinality := r.cardinality }) d.reference?.toList relationIds := by
    intro tables
    rw [ColumnDraft.relation?]
    cases d.reference? with
    | none => rfl
    | some r => cases relationIds <;> rfl
  have hbuild : Outline.build [.table (.table ⟨⟨table, none, []⟩, rest, [.column d]⟩)]
      (tableId :: columnId :: relationIds) =
      ([(some { id := tableId, name := table, columns := [d.toColumn columnId] },
        [d.relation? tableId columnId].filterMap id)], relationIds) := rfl
  rw [oneColumnSchema, hid, ← hrelations, Outline.toSchema, hbuild]
  simp

end OneColumn

/-- Settings say the same of a column in any order, letter case and spacing. Its line is read alike in
any table; in a table of its own there are no diagnostics and one column, with the flags of the
settings that are there and no other ones, and with the default value and the note that they give.
A reference behind them adds its own flag and one relation from that column, and nothing else. -/
theorem parse_settings {σ : Type} {source : IdSource σ} (hs : source.Total) (st : σ)
    {table name type : String} (htable : PlainName table) (hname : PlainName name)
    (htype : PlainType type.toList) (hspecial : ¬Column.LooksSpecial { id := "", name, type })
    {xs ys : List ColumnSetting} (hperm : ys.Perm xs)
    (hdefault : (xs.filterMap ColumnSetting.default?).length ≤ 1)
    (hnote : (xs.filterMap ColumnSetting.note?).length ≤ 1) {ref : Option InlineRef}
    {line f g : List Char} (hline : SettingsLine name type ys ref line) (hf : Filler f)
    (hg : Filler g) :
    let described (id : String) : Column :=
      { Column.ofSettings id name type xs with constraints.fk := flagOf ref.isSome }
    (∀ s, ∃ d, Outline.line? (f ++ (line ++ s)) = some (.column d, s) ∧
      (∀ id, d.toColumn id = described id) ∧ d.reference? = ref) ∧
    ∃ tableId columnId relationIds,
      source.idsFor (oneColumnKinds ref) st = tableId :: columnId :: relationIds ∧
      relationIds.length = ref.toList.length ∧
      parse source st (String.ofList (tableAround table (f ++ (line ++ g)))) =
        ⟨some (oneColumnSchema table tableId (described columnId) ref relationIds), []⟩ := by
  intro described
  have hnone : ∀ x ∈ ys, x.isReference = false := by
    obtain @⟨_, _, _, _, _, _, _, hsettings, _⟩ := hline
    exact hsettings.no_reference
  have hcolumn : ∀ t id, (ColumnDraft.mk name type t (ys ++ referenceSettings ref)).toColumn id =
      described id := by
    intro t id
    rw [toColumn_eq, ofSettings_reference hnone ref,
      ofSettings_perm hperm hdefault hnote id name type]
  have href := reference?_settings hnone ref name type
  refine ⟨?_, ?_⟩
  · intro s
    obtain ⟨t, hread⟩ := hline.line? hname htype hspecial hf s
    exact ⟨_, hread, hcolumn t, href t⟩
  · obtain ⟨t, hread⟩ := hline.line? hname htype hspecial hf (g ++ ['}'])
    have hend : Outline.line? (g ++ ['}']) = none := by
      unfold Outline.line?
      rw [skipFiller_closing hg]
      rfl
    have hlines : many Outline.line? line?_progresses (f ++ (line ++ g) ++ ['}']) =
        ([.column ⟨name, type, t, ys ++ referenceSettings ref⟩], g ++ ['}']) := by
      rw [List.append_assoc, List.append_assoc, many_of_some hread, many_of_none hend]
    have hdoc : Outline.read (tableAround table (f ++ (line ++ g))) =
        [.table (.table ⟨⟨table, none, []⟩, f ++ (line ++ g) ++ ['}'],
          [.column ⟨name, type, t, ys ++ referenceSettings ref⟩]⟩)] :=
      read_oneTable htable hlines (skipFiller_closing hg [])
    have htext : (String.ofList (tableAround table (f ++ (line ++ g)))).toList =
        tableAround table (f ++ (line ++ g)) := String.toList_ofList
    have hblank : (String.ofList (tableAround table (f ++ (line ++ g)))).toList.all isBlank = false := by
      rw [htext]
      rfl
    have hparse := parse_of_total hs st hblank
    obtain ⟨hfaults, hkinds⟩ := @events_oneColumn table (f ++ (line ++ g) ++ ['}'])
      ⟨name, type, t, ys ++ referenceSettings ref⟩
    rw [href t] at hkinds
    have hlength := IdSource.length_idsFor hs (oneColumnKinds ref) st
    rw [htext, hdoc, hfaults, hkinds] at hparse
    match hids : source.idsFor (oneColumnKinds ref) st, hlength with
    | tableId :: columnId :: relationIds, hlength =>
      refine ⟨tableId, columnId, relationIds, rfl, ?_, ?_⟩
      · cases ref <;> simpa [oneColumnKinds] using hlength
      · rw [hparse, hids, toSchema_oneColumn, hcolumn, href]
        rfl
    | [_], hlength => simp [oneColumnKinds] at hlength
    | [], hlength => simp [oneColumnKinds] at hlength

/-- Settings of most kinds. -/
def sundrySettings : List ColumnSetting :=
  [.primaryKey, .notNull, .unique, .other, .other, .defaultValue "now ()", .note "it's\n[all]"]

/-- The same settings in another order. -/
def sundryOrder : List ColumnSetting :=
  [.unique, .defaultValue "now ()", .other, .primaryKey, .other, .note "it's\n[all]", .notNull]

def sundryReference : InlineRef := ⟨.manyToMany, ⟨"t", "total"⟩⟩

/-- Their text, with values that hold what ends others, and with a reference behind them. -/
def sundryText : List Char :=
  ("\tUNIQUE ,deFault:now () , since : \"a, ]\", Primary \tKEY,key,NOTE :'it\\'s\n[all]' ," ++
    "not  NULL , ref: <>t.total, pk]").toList

def sundryLine : List Char := "total decimal(10, 2)[".toList ++ (sundryText ++ " #[\n".toList)

theorem settingsText_sundry : SettingsText sundryOrder (some sundryReference) sundryText := by
  have hspace : Blanks [' '] := blanks_space
  have htab : Blanks ['\t'] := by simp [Blanks, isInlineSpace]
  have hbare : ValueText "now ()" "now ()".toList :=
    .bare (w := "now ()".toList) (List.all_eq_true.1 (by decide))
  have hsince : ValueText "a, ]" "\"a, ]\"".toList :=
    .quoted (.double (w := "a, ]".toList) (by decide))
  have hnote : ValueText "it's\n[all]" "'it\\'s\n[all]'".toList :=
    .quoted (.single (w := "it\\'s\n[all]".toList) (by decide +kernel))
  have href : ReferenceText sundryReference "ref: <>t.total, pk".toList :=
    .reference (w := "ref".toList) (k := .manyToMany) (e := ⟨bare "t", bare "total"⟩)
      (r := ", pk".toList) (by decide) blanks_nil hspace blanks_nil (by decide)
      (.cons (by decide) (by decide) _) (by simp [endsSettings])
  have htext := SettingsText.cons htab (.unique (w := "UNIQUE".toList) (by decide)) hspace
    (.cons blanks_nil (.defaultValue (w := "deFault".toList) (by decide)
        (.colon blanks_nil blanks_nil hbare)) hspace
      (.cons hspace (.unknownValue (w := "since".toList) (by decide) (by decide)
          (.colon hspace hspace hsince)) blanks_nil
        (.cons hspace (.primaryKeyWords (v := "Primary".toList) (g := [' ', '\t'])
            (w := "KEY".toList) (by decide) (by simp) (by simp [Blanks, isInlineSpace])
            (by decide)) blanks_nil
          (.cons blanks_nil (.unknown (w := "key".toList) (by decide) (by decide)) blanks_nil
            (.cons blanks_nil (.note (w := "NOTE".toList) (by decide)
                (.colon hspace blanks_nil hnote)) hspace
              (.cons blanks_nil (.notNull (v := "not".toList) (g := [' ', ' '])
                  (w := "NULL".toList) (by decide) (by simp) (by simp [Blanks, isInlineSpace])
                  (by decide)) hspace
                (.reference hspace href)))))))
  exact Eq.subst (motive := SettingsText _ _) (by decide +kernel) htext

theorem settingsLine_sundry :
    SettingsLine "total" "decimal(10, 2)" sundryOrder (some sundryReference) sundryLine := by
  have hline := @SettingsLine.line "total" "decimal(10, 2)" _ _ _ _ _ _
    (List.cons_ne_nil ' ' []) blanks_space blanks_nil settingsText_sundry
    (.hashComment (w := ['[']) (List.cons_ne_nil ' ' []) blanks_space (by decide))
  exact Eq.subst (motive := SettingsLine _ _ _ _) (by decide +kernel) hline

theorem parse_settings_sundry :
    IdSource.counting.Total ∧ PlainName "t" ∧ PlainName "total" ∧
      PlainType "decimal(10, 2)".toList ∧
      ¬Column.LooksSpecial { id := "", name := "total", type := "decimal(10, 2)" } ∧
      sundryOrder.Perm sundrySettings ∧
      (sundrySettings.filterMap ColumnSetting.default?).length ≤ 1 ∧
      (sundrySettings.filterMap ColumnSetting.note?).length ≤ 1 ∧
      SettingsLine "total" "decimal(10, 2)" sundryOrder (some sundryReference) sundryLine ∧
      Filler ['\n'] ∧ Filler [] ∧
      parse .counting 1 (String.ofList (tableAround "t" (['\n'] ++ (sundryLine ++ [])))) =
        ⟨some {
          tables := [
            { id := "table_1", name := "t"
              columns := [
                { id := "col_2", name := "total", type := "decimal(10, 2)"
                  constraints :=
                    { pk := some true, fk := some true, unique := some true, notNull := some true }
                  defaultValue := some "now ()", note := some "it's\n[all]" }] }]
          relations := [
            { id := "rel_3", source := ⟨"table_1", "col_2"⟩, target := ⟨"table_1", "col_2"⟩
              cardinality := .manyToMany }] }, []⟩ := by
  have hnewline : Filler ['\n'] := .gap (by decide) .nil
  have hspecial : ¬Column.LooksSpecial { id := "", name := "total", type := "decimal(10, 2)" } := by
    decide
  have hperm : sundryOrder.Perm sundrySettings := by decide
  have hdefault : (sundrySettings.filterMap ColumnSetting.default?).length ≤ 1 := by decide
  have hnote : (sundrySettings.filterMap ColumnSetting.note?).length ≤ 1 := by decide
  have htable : PlainName "t" := by decide
  have h := parse_settings IdSource.counting_total 1 htable (by decide) (by decide) hspecial
    hperm hdefault hnote settingsLine_sundry hnewline .nil
  obtain ⟨tableId, columnId, relationIds, hids, -, hparse⟩ := h.2
  have hdrawn : IdSource.counting.idsFor (oneColumnKinds (some sundryReference)) 1 =
      ["table_1", "col_2", "rel_3"] := by decide +kernel
  rw [hdrawn] at hids
  obtain ⟨rfl, hbehind⟩ := List.cons.inj hids
  obtain ⟨rfl, rfl⟩ := List.cons.inj hbehind
  exact ⟨IdSource.counting_total, by decide, by decide, by decide, hspecial, hperm, hdefault, hnote,
    settingsLine_sundry, hnewline, .nil, hparse.trans (by decide +kernel)⟩

end Dbml
