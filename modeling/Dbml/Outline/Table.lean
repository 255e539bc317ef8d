import Dbml.Outline.Column
import Dbml.Text.Block

/-!
# Tables

A table has a header (its name, an alias, settings in brackets) and a body of lines between
braces. A line is a column, a note, or a block that is recognised but not kept.

A header that lacks its name, its alias or the opening brace is a fault, and so is a body that
is never closed; reading goes on where the fault was noticed.

Results:
* `line?_progresses`: every line takes at least one character;
* `readTable_suffix`: what is left is a suffix of what was given.
-/
namespace Dbml.Outline

open Text

/-! ## The header -/

/-- What a header's settings say of the table. -/
inductive TableSetting where
  | color (value : String)
  | note (value : String)
  /-- Nothing that the schema keeps. -/
  | other
  deriving DecidableEq, Repr

/-- The setting that a word introduces, given the text after the word (the branches of
`_parse_table_settings`). -/
def readTableSettingOf (word : String) (r : List Char) : TableSetting × List Char :=
  match colonValue? r with
  | some (v, t) =>
    if word = "headercolor" then (.color v, t)
    else if word = "note" then (.note v, t)
    else (.other, skipSetting r)
  | none => (.other, skipSetting r)

theorem readTableSettingOf_suffix (word : String) (r : List Char) :
    (readTableSettingOf word r).2 <:+ r := by
  unfold readTableSettingOf; split
  · rename_i h
    split
    · exact colonValue?_suffix h
    · split
      · exact colonValue?_suffix h
      · exact skipSetting_suffix r
  · exact skipSetting_suffix r

/-- The setting at the front, given text that does not start with a separator. -/
def readTableSetting (s : List Char) : TableSetting × List Char :=
  let (word, r) := readWord s
  readTableSettingOf (lower word) (skipInline r)

/-- The next setting of a table; none at the end of its settings (a turn of
`_parse_table_settings`). -/
def tableSetting? (s : List Char) : Option (TableSetting × List Char) :=
  match skipSeparators s with
  | [] => none
  | c :: r => if endsSettings c then none else some (readTableSetting (c :: r))

theorem readTableSetting_shorter {c : Char} {r : List Char} (hb : isInlineSpace c = false)
    (hc : c ≠ ',') (he : endsSettings c = false) :
    Shorter (readTableSetting (c :: r)).2 (c :: r) := by
  unfold readTableSetting
  dsimp only
  by_cases hw : (readWord (c :: r)).1 = []
  · have hk : lower [] ≠ "headercolor" ∧ lower [] ≠ "note" := by decide
    have hs : skipInline (c :: r) = c :: r := by simp [skipInline, hb]
    rw [hw, readWord_of_empty hw, hs]
    have : (readTableSettingOf (lower []) (c :: r)).2 = skipSetting (c :: r) := by
      unfold readTableSettingOf; split
      · simp [hk]
      · rfl
    rw [this]
    refine skipSetting_shorter ?_
    simp only [endsSettings, Bool.or_eq_false_iff] at he
    simp [endsSetting, hc, he]
  · exact Shorter.trans_suffix ((readTableSettingOf_suffix _ _).trans (skipInline_suffix _))
      (readWord_shorter hw)

theorem tableSetting?_progresses : Progresses tableSetting? := by
  intro s a t h
  unfold tableSetting? at h
  split at h
  · simp at h
  · rename_i c r hs
    split at h
    · simp at h
    · rename_i he
      have hc := skipSeparators_head hs
      have hsh := readTableSetting_shorter (r := r) hc.1 hc.2 (by simpa using he)
      rw [Option.some.inj h] at hsh
      exact hsh.suffix_trans (hs ▸ skipSeparators_suffix s)

/-- The settings in brackets at the front, if a bracket opens there, and the text after them and the
filler behind them (`_parse_table_settings`). -/
def readTableSettings (s : List Char) : List TableSetting × List Char :=
  match s with
  | '[' :: r =>
    (many tableSetting? tableSetting?_progresses r).map id fun r =>
      skipFiller (dropChar ']' (skipSeparators r))
  | _ => ([], s)

theorem readTableSettings_suffix (s : List Char) : (readTableSettings s).2 <:+ s := by
  unfold readTableSettings; split
  · exact (skipFiller_suffix _).trans ((dropChar_suffix _ _).trans
      ((skipSeparators_suffix _).trans ((many_suffix _).trans (List.suffix_cons _ _))))
  · exact List.suffix_rfl

/-- The header of a table. -/
structure TableHeader where
  name : String
  aliasName : Option String
  settings : List TableSetting
  deriving DecidableEq, Repr

/-- The alias at the front, given the name of the table, and the text after it and the filler behind
it (a part of `_parse_table`). -/
def readAlias (table : List Char) (s : List Char) :
    Except Fault (Option String × List Char) :=
  match aliasWord? s with
  | none => .ok (none, s)
  | some r =>
    let (name, t) := readIdentifier (skipFiller r)
    if name.isEmpty then .error ⟨.noTableAlias (String.ofList table), t⟩
    else .ok (some (String.ofList name), skipFiller t)

/-- The header of a table, given the text after the word that introduces it, and the text after the
opening brace (the first part of `_parse_table`). -/
def readHeader (s : List Char) : Except Fault (TableHeader × List Char) :=
  let (name, r) := readIdentifier (skipFiller s)
  if name.isEmpty then .error ⟨.noTableName, r⟩
  else
    match readAlias name (skipFiller r) with
    | .error f => .error f
    | .ok (aliasName, t) =>
      match readTableSettings t with
      | (settings, '{' :: u) => .ok (⟨String.ofList name, aliasName, settings⟩, u)
      | (_, u) => .error ⟨.noTableOpening, u⟩

theorem readAlias_ok_suffix {name s t : List Char} {a : Option String}
    (h : readAlias name s = .ok (a, t)) : t <:+ s := by
  unfold readAlias at h; split at h
  · obtain ⟨-, rfl⟩ := Prod.mk.inj (Except.ok.inj h); exact List.suffix_rfl
  · rename_i r hr
    dsimp only at h; split at h
    · simp at h
    · obtain ⟨-, rfl⟩ := Prod.mk.inj (Except.ok.inj h)
      exact (skipFiller_suffix _).trans ((readIdentifier_suffix _).trans
        ((skipFiller_suffix r).trans (aliasWord?_suffix hr)))

theorem readAlias_error_suffix {name s : List Char} {f : Fault}
    (h : readAlias name s = .error f) : f.rest <:+ s := by
  unfold readAlias at h; split at h
  · simp at h
  · rename_i r hr
    dsimp only at h; split at h
    · obtain rfl := Except.error.inj h
      exact (readIdentifier_suffix _).trans ((skipFiller_suffix r).trans (aliasWord?_suffix hr))
    · simp at h

theorem readHeader_ok_suffix {s t : List Char} {header : TableHeader}
    (h : readHeader s = .ok (header, t)) : t <:+ s := by
  have hn := (readIdentifier_suffix (skipFiller s)).trans (skipFiller_suffix s)
  unfold readHeader at h
  dsimp only at h; split at h
  · simp at h
  · split at h
    · simp at h
    · rename_i a r ha
      split at h
      · rename_i e
        obtain ⟨-, rfl⟩ := Prod.mk.inj (Except.ok.inj h)
        have hs := readTableSettings_suffix r
        rw [e] at hs
        exact (List.suffix_cons _ _).trans (hs.trans ((readAlias_ok_suffix ha).trans
          ((skipFiller_suffix _).trans hn)))
      · simp at h

theorem readHeader_error_suffix {s : List Char} {f : Fault} (h : readHeader s = .error f) :
    f.rest <:+ s := by
  have hn := (readIdentifier_suffix (skipFiller s)).trans (skipFiller_suffix s)
  unfold readHeader at h
  dsimp only at h; split at h
  · obtain rfl := Except.error.inj h; exact hn
  · split at h
    · rename_i ha
      obtain rfl := Except.error.inj h
      exact (readAlias_error_suffix ha).trans ((skipFiller_suffix _).trans hn)
    · rename_i a r ha
      split at h
      · simp at h
      · rename_i e
        obtain rfl := Except.error.inj h
        have hs := readTableSettings_suffix r
        rw [e] at hs
        exact hs.trans ((readAlias_ok_suffix ha).trans ((skipFiller_suffix _).trans hn))

/-! ## The body -/

/-- What a line of a table's body holds. -/
inductive Line where
  | column (column : ColumnDraft)
  | note (value : String)
  /-- A block of indexes or of a note. -/
  | block
  /-- A stray slash and what follows it on its line. -/
  | noise
  | fault (fault : Fault)
  deriving DecidableEq, Repr

/-- The line of a column, as a line of the body (the last part of `_parse_table_item`). -/
def columnLine (s : List Char) : Line × List Char :=
  match readColumn s with
  | (.ok column, r) => (.column column, r)
  | (.error fault, r) => (.fault fault, r)

theorem columnLine_snd (s : List Char) : (columnLine s).2 = (readColumn s).2 := by
  unfold columnLine; split <;> simp_all

/-- The line at the front that a word may introduce, given the text after the word and the blanks
behind it: a note, or a block of notes or indexes (the first part of `_parse_table_item`). -/
def wordLine? (word : String) (s r : List Char) : Option (Line × List Char) :=
  if word = "indexes" ∨ word = "note" then
    match r with
    | '{' :: _ => some (.block, skipBlock s)
    | ':' :: t =>
      if word = "note" then
        some ((readValue (skipInline t)).map (fun v => .note (String.ofList v)) dropLine)
      else none
    | _ => none
  else none

/-- The line at the front, given text that starts with no filler and no closing brace
(`_parse_table_item`). -/
def readLine (s : List Char) : Line × List Char :=
  match s with
  | '/' :: r => (.noise, skipLine r)
  | _ =>
    let (word, r) := readWord s
    (wordLine? (lower word) s (skipInline r)).getD (columnLine s)

theorem readLine_of_ne_slash {c : Char} (h : c ≠ '/') (s : List Char) :
    readLine (c :: s) =
      (wordLine? (lower (readWord (c :: s)).1) (c :: s) (skipInline (readWord (c :: s)).2)).getD
        (columnLine (c :: s)) := by
  unfold readLine
  split
  · rename_i e; exact absurd (List.cons.inj e).1 h
  · rfl

/-- The next line of a table's body; none at the closing brace and at the end of the text (a turn of
the loop in `_parse_table`). -/
def line? (s : List Char) : Option (Line × List Char) :=
  match skipFiller s with
  | [] => none
  | '}' :: _ => none
  | c :: r => some (readLine (c :: r))

theorem wordLine?_shorter {word : List Char} {c : Char} {s r t : List Char} {l : Line}
    (hr : r <:+ c :: s) (hc : c ≠ '{') (hn : c ≠ '\n')
    (h : wordLine? (lower word) (c :: s) r = some (l, t)) : Shorter t (c :: s) := by
  unfold wordLine? at h
  split at h
  · split at h
    · obtain ⟨-, rfl⟩ := Prod.mk.inj (Option.some.inj h); exact skipBlock_shorter hc hn
    · rename_i u
      split at h
      · obtain ⟨-, rfl⟩ := Prod.mk.inj (Option.some.inj h)
        refine Shorter.trans_suffix (s := u) ?_ ((Shorter.cons _ u).suffix_trans hr)
        exact (dropLine_suffix _).trans ((readValue_suffix _).trans (skipInline_suffix u))
      · simp at h
    · simp at h
  · simp at h

theorem wordLine?_nil (s r : List Char) : wordLine? (lower []) s r = none := by
  have : ¬(lower [] = "indexes" ∨ lower [] = "note") := by decide
  simp [wordLine?, this]

theorem readLine_shorter {c : Char} {s : List Char} (hc : c ≠ '}') :
    Shorter (readLine (c :: s)).2 (c :: s) := by
  unfold readLine
  split
  · rename_i r e
    obtain ⟨rfl, rfl⟩ := List.cons.inj e
    exact .of_suffix_cons _ (skipLine_suffix _)
  · dsimp only
    cases h : wordLine? (lower (readWord (c :: s)).1) (c :: s) (skipInline (readWord (c :: s)).2) with
    | none => rw [Option.getD_none, columnLine_snd]; exact readColumn_shorter hc
    | some p =>
      obtain ⟨l, t⟩ := p
      have hw : isWordStart c = true := by
        by_cases hw : isWordStart c = true
        · exact hw
        · have : (readWord (c :: s)).1 = [] := by simp [readWord, hw]
          rw [this, wordLine?_nil] at h; simp at h
      refine wordLine?_shorter ((skipInline_suffix _).trans (readWord_suffix _)) ?_ ?_ h
      · rintro rfl; revert hw; decide
      · rintro rfl; revert hw; decide

theorem line?_progresses : Progresses line? := by
  intro s a t h
  have hs := skipFiller_suffix s
  unfold line? at h
  split at h
  · simp at h
  · simp at h
  · rename_i c r hc e
    have hsh := readLine_shorter (s := r) hc
    rw [Option.some.inj h] at hsh
    exact hsh.suffix_trans (e ▸ hs)

/-! ## Statements -/

/-- A table as a document describes it. -/
structure TableDraft where
  header : TableHeader
  /-- What was still to be read when the table's id is drawn, which is after its opening brace. -/
  rest : List Char
  lines : List Line
  deriving DecidableEq, Repr

/-- What stands where a table is introduced. -/
inductive TableItem where
  | table (table : TableDraft)
  /-- A table whose body is never closed. -/
  | unclosed (table : TableDraft) (fault : Fault)
  | headless (fault : Fault)
  deriving DecidableEq, Repr

/-- The table whose header was read, given the text after its opening brace (the loop in
`_parse_table`). -/
def readBody (header : TableHeader) (s : List Char) : TableItem × List Char :=
  let (lines, r) := many line? line?_progresses s
  match skipFiller r with
  | '}' :: t => (.table ⟨header, s, lines⟩, t)
  | t => (.unclosed ⟨header, s, lines⟩ ⟨.noTableClosing, t⟩, t)

theorem readBody_suffix (header : TableHeader) (s : List Char) :
    (readBody header s).2 <:+ s := by
  have h := (skipFiller_suffix (many line? line?_progresses s).2).trans (many_suffix s)
  unfold readBody
  dsimp only
  split
  · rename_i e; rw [e] at h; exact (List.suffix_cons _ _).trans h
  · exact h

/-- The table at the front, given the text after the word that introduces it (`_parse_table`). -/
def readTable (s : List Char) : TableItem × List Char :=
  match readHeader s with
  | .ok (header, r) => readBody header r
  | .error fault => (.headless fault, fault.rest)

theorem readTable_suffix (s : List Char) : (readTable s).2 <:+ s := by
  unfold readTable; split
  · rename_i h; exact (readBody_suffix _ _).trans (readHeader_ok_suffix h)
  · rename_i h; exact readHeader_error_suffix h

end Dbml.Outline
