import Dbml.Outline.ColumnType
import Dbml.Outline.Reference
import Dbml.Text.Value

/-!
# Columns

A line of a table describes a column: its name, its type and, in brackets, its settings. Settings
are separated by commas and blanks and end at the closing bracket or with the line. Unknown
settings are passed over. A reference ends the settings: what follows it in the brackets is
dropped.

Results:
* `columnSetting?_progresses`: every setting takes at least one character;
* `readColumn_suffix`, `readColumn_shorter`: a column's line is a non-empty part of the text.
-/
namespace Dbml.Outline

open Text

/-- What a setting says of its column. -/
inductive ColumnSetting where
  | primaryKey
  | notNull
  | nullable
  | unique
  | increment
  | defaultValue (value : String)
  | note (value : String)
  /-- The column refers to another one; where the reference is not understood, to none. -/
  | reference (target : Option InlineRef)
  /-- Nothing that the schema keeps. -/
  | other
  deriving DecidableEq, Repr

/-- The words that a setting may start with. -/
inductive SettingWord where
  | primaryKey
  /-- May be followed by the word for a key. -/
  | primary
  | not
  | null
  | unique
  | increment
  | defaultValue
  | note
  | reference
  deriving DecidableEq, Repr

/-- The settings' words in small letters (`PRIMARY_KEY_WORDS`, `INCREMENT_WORDS` and the words in
`_parse_column_settings`). -/
def settingWords : List (String × SettingWord) :=
  [("pk", .primaryKey), ("primary", .primary), ("primarykey", .primaryKey), ("not", .not),
    ("null", .null), ("unique", .unique), ("increment", .increment),
    ("autoincrement", .increment), ("default", .defaultValue), ("note", .note),
    ("ref", .reference)]

/-- The setting that a word introduces, in any letter case. -/
def SettingWord.ofWord? (w : List Char) : Option SettingWord := settingWords.lookup (lower w)

/-- Whether settings are over: at the end of the text, at a closing bracket and at a newline. -/
def endsSettings (c : Char) : Bool := c == ']' || c == '\n'

/-- Skips the blanks and commas between settings. -/
def skipSeparators (s : List Char) : List Char := s.dropWhile fun c => isInlineSpace c || c == ','

theorem skipSeparators_suffix (s : List Char) : skipSeparators s <:+ s := List.dropWhile_suffix _

theorem skipSeparators_skipInline (s : List Char) :
    skipSeparators (skipInline s) = skipSeparators s := by
  induction s with
  | nil => rfl
  | cons c s ih =>
    by_cases hc : isInlineSpace c = true
    · have hs : skipSeparators (c :: s) = skipSeparators s := by simp [skipSeparators, hc]
      have hi : skipInline (c :: s) = skipInline s := by simp [skipInline, hc]
      rw [hs, hi, ih]
    · have hi : skipInline (c :: s) = c :: s := by simp [skipInline, hc]
      rw [hi]

/-- What stands behind the blanks before a setting: a comma, which separates settings, or what no
separator starts with. -/
theorem skipSeparators_of_skipInline {s r : List Char} {c : Char} (h : skipInline s = c :: r) :
    skipSeparators s = if c == ',' then skipSeparators r else c :: r := by
  have hb : isInlineSpace c = false := by
    have := List.head?_dropWhile_not isInlineSpace s
    rw [skipInline] at h
    rw [h] at this
    exact this
  rw [← skipSeparators_skipInline, h]
  by_cases hc : c = ','
  · subst hc; rfl
  · simp [skipSeparators, hb, hc]

/-- The value after the colon at the front, if a colon stands there (a part of
`_parse_column_settings`). -/
def colonValue? : List Char → Option (String × List Char)
  | ':' :: r => some ((readValue (skipInline r)).map String.ofList id)
  | _ => none

theorem colonValue?_suffix {s r : List Char} {v : String} (h : colonValue? s = some (v, r)) :
    r <:+ s := by
  unfold colonValue? at h; split at h
  · obtain ⟨-, rfl⟩ := Prod.mk.inj (Option.some.inj h)
    exact (readValue_suffix _).trans ((skipInline_suffix _).trans (List.suffix_cons _ _))
  · simp at h

/-- The setting that a word introduces, given the text after the word (the branches of
`_parse_column_settings`). -/
def readSettingOf (word : Option SettingWord) (r : List Char) : ColumnSetting × List Char :=
  match word with
  | some .primaryKey => (.primaryKey, r)
  | some .primary => (.primaryKey, if lower (readWord r).1 = "key" then (readWord r).2 else r)
  | some .not => (if lower (readWord r).1 = "null" then .notNull else .other, (readWord r).2)
  | some .null => (.nullable, r)
  | some .unique => (.unique, r)
  | some .increment => (.increment, r)
  | some .defaultValue =>
    match colonValue? r with
    | some (v, t) => (.defaultValue v, t)
    | none => (.other, skipSetting r)
  | some .note =>
    match colonValue? r with
    | some (v, t) => (.note v, t)
    | none => (.other, skipSetting r)
  | some .reference => (readInlineRef r).map .reference (·.dropWhile (!endsSettings ·))
  | none => (.other, skipSetting r)

theorem readSettingOf_suffix (word : Option SettingWord) (r : List Char) :
    (readSettingOf word r).2 <:+ r := by
  unfold readSettingOf
  split
  · exact List.suffix_rfl
  · dsimp only; split
    · exact readWord_suffix r
    · exact List.suffix_rfl
  · exact readWord_suffix r
  · exact List.suffix_rfl
  · exact List.suffix_rfl
  · exact List.suffix_rfl
  · split
    · rename_i h; exact colonValue?_suffix h
    · exact skipSetting_suffix r
  · split
    · rename_i h; exact colonValue?_suffix h
    · exact skipSetting_suffix r
  · exact (List.dropWhile_suffix _).trans (readInlineRef_suffix r)
  · exact skipSetting_suffix r

/-- The setting at the front, given text that does not start with a separator (a part of
`_parse_column_settings`). -/
def readSetting (s : List Char) : ColumnSetting × List Char :=
  let (word, r) := readWord s
  readSettingOf (SettingWord.ofWord? word) (skipInline r)

/-- The next setting of a column; none at the end of its settings (a turn of
`_parse_column_settings`). -/
def columnSetting? (s : List Char) : Option (ColumnSetting × List Char) :=
  match skipSeparators s with
  | [] => none
  | c :: r => if endsSettings c then none else some (readSetting (c :: r))

theorem skipSeparators_head {s r : List Char} {c : Char} (h : skipSeparators s = c :: r) :
    isInlineSpace c = false ∧ c ≠ ',' := by
  have := List.head?_dropWhile_not (fun c => isInlineSpace c || c == ',') s
  rw [skipSeparators] at h
  rw [h] at this
  simpa using this

theorem readSetting_shorter {c : Char} {r : List Char} (hb : isInlineSpace c = false)
    (hc : c ≠ ',') (he : endsSettings c = false) :
    Shorter (readSetting (c :: r)).2 (c :: r) := by
  unfold readSetting
  dsimp only
  by_cases hw : (readWord (c :: r)).1 = []
  · have hk : SettingWord.ofWord? [] = none := by decide
    rw [hw, hk, readWord_of_empty hw]
    have hs : skipInline (c :: r) = c :: r := by simp [skipInline, hb]
    rw [hs]
    refine skipSetting_shorter ?_
    simp only [endsSettings, Bool.or_eq_false_iff] at he
    simp [endsSetting, hc, he]
  · exact Shorter.trans_suffix ((readSettingOf_suffix _ _).trans (skipInline_suffix _))
      (readWord_shorter hw)

theorem columnSetting?_progresses : Progresses columnSetting? := by
  intro s a t h
  unfold columnSetting? at h
  split at h
  · simp at h
  · rename_i c r hs
    split at h
    · simp at h
    · rename_i he
      have hc := skipSeparators_head hs
      have hsh := readSetting_shorter (r := r) hc.1 hc.2 (by simpa using he)
      rw [Option.some.inj h] at hsh
      exact hsh.suffix_trans (hs ▸ skipSeparators_suffix s)

/-- The settings of a column, given the text after the opening bracket, and the text after the
closing one (`_parse_column_settings`). -/
def readColumnSettings (s : List Char) : List ColumnSetting × List Char :=
  (many columnSetting? columnSetting?_progresses s).map id fun r => dropChar ']' (skipSeparators r)

theorem readColumnSettings_suffix (s : List Char) : (readColumnSettings s).2 <:+ s :=
  (dropChar_suffix _ _).trans ((skipSeparators_suffix _).trans (many_suffix s))

/-! ## Column lines -/

/-- A column as a document describes it. -/
structure ColumnDraft where
  name : String
  type : String
  /-- What was still to be read when the column's id is drawn, which is after its type. -/
  rest : List Char
  settings : List ColumnSetting
  deriving DecidableEq, Repr

/-- The settings in brackets at the front, if a bracket opens there. -/
def readOptionalSettings (s : List Char) : List ColumnSetting × List Char :=
  match s with
  | '[' :: r => readColumnSettings r
  | _ => ([], s)

theorem readOptionalSettings_suffix (s : List Char) : (readOptionalSettings s).2 <:+ s := by
  unfold readOptionalSettings; split
  · exact (readColumnSettings_suffix _).trans (List.suffix_cons _ _)
  · exact List.suffix_rfl

/-- The column at the front, and the text where reading it ended (a part of `_parse_column`). -/
def scanColumn (s : List Char) : Except Fault ColumnDraft × List Char :=
  let (name, r) := readIdentifier s
  if name.isEmpty then (.error ⟨.noColumnName, r⟩, r)
  else
    let (type, t) := readType (skipInline r)
    if type.isEmpty then (.error ⟨.noColumnType (String.ofList name), t⟩, t)
    else
      let (settings, u) := readOptionalSettings (skipInline t)
      (.ok ⟨String.ofList name, String.ofList type, t, settings⟩, u)

theorem scanColumn_suffix (s : List Char) : (scanColumn s).2 <:+ s := by
  have hr := readIdentifier_suffix s
  have ht := (readType_suffix (skipInline (readIdentifier s).2)).trans
    ((skipInline_suffix _).trans hr)
  unfold scanColumn
  dsimp only
  split
  · exact hr
  · split
    · exact ht
    · exact (readOptionalSettings_suffix _).trans ((skipInline_suffix _).trans ht)

/-- The column at the front, and the text after its line (`_parse_column`). -/
def readColumn (s : List Char) : Except Fault ColumnDraft × List Char :=
  (scanColumn s).map id dropLine

theorem readColumn_suffix (s : List Char) : (readColumn s).2 <:+ s :=
  (dropLine_suffix _).trans (scanColumn_suffix s)

theorem readColumn_shorter {c : Char} {s : List Char} (hc : c ≠ '}') :
    Shorter (readColumn (c :: s)).2 (c :: s) :=
  dropLine_of_suffix_shorter hc (scanColumn_suffix (c :: s))

end Dbml.Outline
