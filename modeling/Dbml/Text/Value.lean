import Dbml.Text.Quoted

/-!
# Setting values

The value of a setting is a quoted token, or the text up to the next comma, closing bracket or
newline without the white space at its ends. An unknown setting is passed over up to the same
places, quoted tokens inside it being taken whole.
-/
namespace Dbml.Text

/-- A comma, a closing bracket or a newline ends a setting. -/
def endsSetting (c : Char) : Bool := c == ',' || c == ']' || c == '\n'

/-- The value at the front and the text after it (`_parse_value`). -/
def readValue (s : List Char) : List Char × List Char :=
  match s with
  | [] => ([], [])
  | c :: _ =>
    if isQuote c then readQuoted s
    else (trim (s.takeWhile (!endsSetting ·)), s.dropWhile (!endsSetting ·))

theorem readValue_suffix (s : List Char) : (readValue s).2 <:+ s := by
  unfold readValue; split
  · exact List.suffix_rfl
  · split
    · exact readQuoted_suffix _
    · exact List.dropWhile_suffix _

/-- Skips one character or quoted token of a setting (a turn of `_skip_setting`). -/
def settingPiece? (s : List Char) : Option (List Char) :=
  match s with
  | [] => none
  | c :: r =>
    if endsSetting c then none else if isQuote c then some (readQuoted s).2 else some r

theorem settingPiece?_skips : Skips settingPiece? := by
  intro s r h
  unfold settingPiece? at h; split at h
  · simp at h
  · split at h
    · simp at h
    · split at h
      · obtain rfl := Option.some.inj h; exact readQuoted_shorter _ _
      · obtain rfl := Option.some.inj h; exact .cons _ _

/-- Skips to the end of a setting (`_skip_setting`). -/
def skipSetting (s : List Char) : List Char := skipMany settingPiece? settingPiece?_skips s

theorem skipSetting_suffix (s : List Char) : skipSetting s <:+ s := skipMany_suffix s

/-- At a character that ends no setting, at least that character is skipped. -/
theorem skipSetting_shorter {c : Char} {s : List Char} (h : endsSetting c = false) :
    Shorter (skipSetting (c :: s)) (c :: s) := by
  have : ∃ r, settingPiece? (c :: s) = some r := by
    simp only [settingPiece?, h, Bool.false_eq_true, if_false]
    split <;> exact ⟨_, rfl⟩
  obtain ⟨r, hr⟩ := this
  rw [skipSetting, skipMany_of_some hr]
  exact Shorter.trans_suffix (skipMany_suffix r) (settingPiece?_skips hr)

end Dbml.Text
