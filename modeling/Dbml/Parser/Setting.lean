import Dbml.Parser.Block
import Dbml.Schema.OfOutline

/-!
# Endpoints and settings

What a column or a table says of itself in brackets, and what a reference is made of. None of it is
ever reported: what is not understood is skipped.

Results: what each of these reads and leaves, in terms of the text that is still to be read.
-/
namespace Dbml.Scan

open Text Outline

/-! ## References -/

/-- The symbols of one character (`REF_SYMBOLS`). -/
def refSymbols : List (Char × Cardinality) :=
  [('-', .oneToOne), ('<', .oneToMany), ('>', .manyToOne)]

/-- Reads the symbol between two endpoints (`_parse_ref_symbol`). -/
def parseRefSymbol : Scan (Option Cardinality) := do
  if ← startsWith ['<', '>'] then
    advance 2
    return some .manyToMany
  else
    match (← peek).bind fun c => refSymbols.lookup c with
    | none => return none
    | some cardinality =>
      advance 1
      return some cardinality

theorem lookup_refSymbols {c : Char} (h : c ≠ '<' ∧ c ≠ '>' ∧ c ≠ '-') :
    refSymbols.lookup c = none := by
  simp [refSymbols, List.lookup_cons, beq_false_of_ne h.1, beq_false_of_ne h.2.1,
    beq_false_of_ne h.2.2]

@[simp] theorem reads_parseRefSymbol (s : Scanner) :
    parseRefSymbol.reads s =
      ((readSymbol? s.rest).map Prod.fst, ((readSymbol? s.rest).map Prod.snd).getD s.rest) := by
  have hless : refSymbols.lookup '<' = some .oneToMany := rfl
  have hmore : refSymbols.lookup '>' = some .manyToOne := rfl
  have hline : refSymbols.lookup '-' = some .oneToOne := rfl
  unfold readSymbol?
  split
  · rename_i hs
    simp [parseRefSymbol, hs]
  · rename_i r hne hs
    have hboth : ['<', '>'].isPrefixOf ('<' :: r) = false :=
      isPrefixOf_eq_false fun t e => hne t (List.cons.inj e).2
    simp [parseRefSymbol, hs, hboth, hless]
  · rename_i hs
    simp [parseRefSymbol, hs, hmore, List.isPrefixOf]
  · rename_i hs
    simp [parseRefSymbol, hs, hline, List.isPrefixOf]
  · rename_i hless hmore hline
    cases hs : s.rest with
    | nil => simp [parseRefSymbol, hs]
    | cons c r =>
      have hc : c ≠ '<' ∧ c ≠ '>' ∧ c ≠ '-' :=
        ⟨fun e => hless r (by rw [hs, e]), fun e => hmore r (by rw [hs, e]),
          fun e => hline r (by rw [hs, e])⟩
      simp [parseRefSymbol, hs, lookup_refSymbols hc, List.isPrefixOf, Ne.symm hc.1]

/-- One turn of the loop in `_parse_endpoint`, with what ends it early and the names read so far. -/
def endpointTurn (a : Option EndpointText × List String) :
    Scan (ForInStep (Option EndpointText × List String)) := do
  if ← nextIs (· == '.') then
    advance 1
    if ← nextIs (· == '(') then
      return .done (some .composite, a.2)
    else
      let part ← parseIdentifier
      if part.isEmpty then
        return .done (some .malformed, a.2)
      else
        return .yield (none, a.2 ++ [String.ofList part])
  else
    return .done (none, a.2)

/-- What ends the names of an endpoint early, given the text behind them. -/
def earlyEnd (t : List Char) : Option EndpointText × List Char :=
  match t with
  | '.' :: '(' :: r => (some .composite, '(' :: r)
  | '.' :: r => (some .malformed, (readIdentifier r).2)
  | _ => (none, t)

/-- The last two of some names, if there are so many. -/
def lastNames (names : List String) : EndpointText :=
  match names.reverse with
  | column :: table :: _ => .named ⟨table, column⟩
  | _ => .malformed

theorem endpointOfNames_eq (names : List String) (t : List Char) :
    endpointOfNames names t = ((earlyEnd t).1.getD (lastNames names), (earlyEnd t).2) := by
  unfold endpointOfNames
  split
  · rfl
  · simp [earlyEnd]
  · have hend : earlyEnd t = (none, t) := by simp [earlyEnd]
    rw [hend, Option.getD_none]
    unfold lastNames
    split <;> simp_all

theorem reads_endpointTurn (a : Option EndpointText × List String) (s : Scanner) :
    (endpointTurn a).reads s = itemTurn namePart? (fun a name => (none, a.2 ++ [name]))
      (fun a t => (((earlyEnd t).1, a.2), (earlyEnd t).2)) a s.rest := by
  cases hs : s.rest with
  | nil => simp [endpointTurn, itemTurn, namePart?, earlyEnd, hs]
  | cons c r =>
    by_cases hc : c = '.'
    · subst hc
      by_cases hopen : ∃ u, r = '(' :: u
      · obtain ⟨u, rfl⟩ := hopen
        have hname : readIdentifier ('(' :: u) = ([], '(' :: u) := rfl
        simp [endpointTurn, itemTurn, namePart?, earlyEnd, hs, hname]
      · have hne : ∀ u, r ≠ '(' :: u := fun u e => hopen ⟨u, e⟩
        have hhead : r.head?.any (· == '(') = false := any_head?_eq_false hne
        cases hn : (readIdentifier r).1 <;>
          simp [endpointTurn, itemTurn, namePart?, earlyEnd, hs, hhead, hn]
    · simp [endpointTurn, itemTurn, namePart?, earlyEnd, hs, hc]

theorem endpointTurn_advances : Advances endpointTurn :=
  advances_of_items reads_endpointTurn namePart?_progresses

/-- Reads an endpoint (`_parse_endpoint`). -/
def parseEndpoint : Scan EndpointText := do
  if ← nextIs (· == '(') then
    return .composite
  else
    let part ← parseIdentifier
    if part.isEmpty then
      return .malformed
    else
      let (early, names) ← loop endpointTurn endpointTurn_advances (none, [String.ofList part])
      return early.getD (lastNames names)

theorem foldl_names (early : Option EndpointText) (names parts : List String) :
    (parts.foldl (fun a name => ((none : Option EndpointText), a.2 ++ [name])) (early, names)).2 =
      names ++ parts := by
  induction parts generalizing early names with
  | nil => simp
  | cons name parts ih => simp [ih]

theorem reads_loop_endpoint (names : List String) (s : Scanner) :
    (loop endpointTurn endpointTurn_advances (none, names)).reads s =
      let (parts, t) := many namePart? namePart?_progresses s.rest
      (((earlyEnd t).1, names ++ parts), (earlyEnd t).2) := by
  rw [reads_loop_items reads_endpointTurn namePart?_progresses]
  dsimp only
  rw [foldl_names]

@[simp] theorem reads_parseEndpoint (s : Scanner) :
    parseEndpoint.reads s = readEndpoint s.rest := by
  unfold readEndpoint
  split
  · rename_i hs
    simp [parseEndpoint, hs]
  · rename_i hne
    simp [parseEndpoint, any_head?_eq_false hne, reads_loop_endpoint, endpointOfNames_eq]

/-- Reads the reference in the settings of a column (`_parse_inline_ref`). -/
def parseInlineRef : Scan (Option InlineRef) := do
  if ← nextIs (· == ':') then
    advance 1
    skipInlineWhitespace
  match ← parseRefSymbol with
  | none => return none
  | some cardinality =>
    skipInlineWhitespace
    match ← parseEndpoint with
    | .named target => return some ⟨cardinality, target⟩
    | .composite | .malformed => return none

/-- The reference behind the blanks and the colon in front of it. -/
def readRefAt (t : List Char) : Option InlineRef × List Char :=
  match readSymbol? t with
  | none => (none, t)
  | some (cardinality, r) =>
    match readEndpoint (skipInline r) with
    | (.named target, u) => (some ⟨cardinality, target⟩, u)
    | (_, u) => (none, u)

theorem readInlineRef_eq (t : List Char) :
    readInlineRef t = readRefAt (if t.head?.any (· == ':') then skipInline t.tail else t) := by
  cases t with
  | nil => rfl
  | cons c r =>
    by_cases hc : c = ':'
    · subst hc; rfl
    · have hstay : readInlineRef (c :: r) = readRefAt (c :: r) := by
        unfold readInlineRef
        split
        · rename_i e; exact absurd (List.cons.inj e).1 hc
        · rfl
      rw [hstay, if_neg (by simp [hc])]

@[simp] theorem reads_parseInlineRef (s : Scanner) :
    parseInlineRef.reads s = readInlineRef s.rest := by
  rw [readInlineRef_eq]
  cases hc : s.rest.head?.any (· == ':') with
  | true =>
    cases hk : readSymbol? (skipInline s.rest.tail) with
    | none => simp [parseInlineRef, readRefAt, hc, hk]
    | some p =>
      cases he : readEndpoint (skipInline p.2) with
      | mk e u => cases e <;> simp [parseInlineRef, readRefAt, hc, hk, he]
  | false =>
    cases hk : readSymbol? s.rest with
    | none => simp [parseInlineRef, readRefAt, hc, hk]
    | some p =>
      cases he : readEndpoint (skipInline p.2) with
      | mk e u => cases e <;> simp [parseInlineRef, readRefAt, hc, hk, he]

/-! ## Loops over settings -/

/-- One turn of the loop in `_parse_column_settings` and in `_parse_table_settings`, given what
reads one setting and what this does to what the settings made so far. -/
def settingsTurn {α β : Type} (setting : Scan β) (next : α → β → α) (a : α) :
    Scan (ForInStep α) := do
  skipInlineWhitespace
  if (← atEnd) || (← nextIs endsSettings) then
    return .done a
  else if ← nextIs (· == ',') then
    advance 1
    return .yield a
  else
    let x ← setting
    return .yield (next a x)

/-- What a turn makes of the text that is to be read. -/
def settingsStep {α β : Type} (read : List Char → β × List Char) (next : α → β → α) (a : α)
    (t : List Char) : ForInStep α × List Char :=
  match skipInline t with
  | [] => (.done a, [])
  | c :: r =>
    if endsSettings c then (.done a, c :: r)
    else if c == ',' then (.yield a, r)
    else (.yield (next a (read (c :: r)).1), (read (c :: r)).2)

section Settings

variable {α β : Type} {setting : Scan β} (next : α → β → α) {read : List Char → β × List Char}
  {setting? : List Char → Option (β × List Char)}

theorem reads_settingsTurn (hread : ∀ s, setting.reads s = read s.rest) (a : α) (s : Scanner) :
    (settingsTurn setting next a).reads s = settingsStep read next a s.rest := by
  simp only [settingsTurn, settingsStep, reads_bind, reads_skipInlineWhitespace, reads_atEnd,
    reads_nextIs, reads_ite, reads_advance, reads_pure, hread, rest_run]
  cases skipInline s.rest with
  | nil => rfl
  | cons c r => simp

variable (hstep : ∀ t, setting? t = match skipSeparators t with
    | [] => none
    | c :: r => if endsSettings c then none else some (read (c :: r)))
include hstep

/-- A turn ends the loop, passes a comma, or reads a setting. -/
theorem settingsStep_cases (a : α) (t : List Char) :
    (setting? t = none ∧ settingsStep read next a t = (.done a, skipSeparators t)) ∨
    (∃ r, Shorter r t ∧ setting? r = setting? t ∧ skipSeparators r = skipSeparators t ∧
      settingsStep read next a t = (.yield a, r)) ∨
    (∃ x r, setting? t = some (x, r) ∧ settingsStep read next a t = (.yield (next a x), r)) := by
  have hsuffix := skipInline_suffix t
  simp only [settingsStep, hstep]
  cases hi : skipInline t with
  | nil =>
    have hsep : skipSeparators t = [] := by rw [← skipSeparators_skipInline, hi]; rfl
    rw [hsep]
    exact .inl ⟨rfl, rfl⟩
  | cons c r =>
    have hsep := skipSeparators_of_skipInline hi
    rw [hi] at hsuffix
    by_cases hcomma : c = ','
    · subst hcomma
      have hr : skipSeparators t = skipSeparators r := hsep
      exact .inr (.inl ⟨r, (Shorter.cons _ r).suffix_trans hsuffix, by rw [hr], hr.symm, rfl⟩)
    · rw [hsep, if_neg (by simpa using hcomma)]
      by_cases hend : endsSettings c = true
      · simp [hend]
      · exact .inr (.inr ⟨(read (c :: r)).1, (read (c :: r)).2, by simp [hend],
          by simp [hend, hcomma]⟩)

theorem settingsTurn_advances (hread : ∀ s, setting.reads s = read s.rest)
    (hp : Progresses setting?) : Advances (settingsTurn setting next) := by
  refine advances_of_reads (reads_settingsTurn next hread) fun a b t h => ?_
  rcases settingsStep_cases next hstep a t with ⟨-, ht⟩ | ⟨r, hr, -, -, ht⟩ | ⟨x, r, hx, ht⟩
  · rw [ht] at h; cases h
  · rw [ht]; exact hr.2
  · rw [ht]; exact (hp hx).2

theorem reads_loop_settings (hread : ∀ s, setting.reads s = read s.rest) (hp : Progresses setting?)
    {h : Advances (settingsTurn setting next)} (a : α) (s : Scanner) :
    (loop (settingsTurn setting next) h a).reads s =
      ((many setting? hp s.rest).1.foldl next a, skipSeparators (many setting? hp s.rest).2) := by
  refine @reads_loop _ _ _ (reads_settingsTurn next hread) _ (fun a t =>
    ((many setting? hp t).1.foldl next a, skipSeparators (many setting? hp t).2))
    (fun a t => ?_) a s
  rcases settingsStep_cases next hstep a t with
    ⟨hn, ht⟩ | ⟨r, hr, hsame, hsep, ht⟩ | ⟨x, r, hx, ht⟩
  · rw [ht, many_of_none hn]; rfl
  · rw [ht]
    cases hs : setting? t with
    | none =>
      dsimp only
      rw [many_of_none hs, many_of_none (hsame.trans hs), hsep]
    | some p =>
      obtain ⟨x, u⟩ := p
      dsimp only
      rw [many_of_some hs, many_of_some (hsame.trans hs)]
  · rw [ht, many_of_some hx]; rfl

end Settings

/-! ## Values of settings -/

/-- Reads the value behind a colon; without a colon, skips the setting. -/
def parseSettingValue {β : Type} (ofValue : String → β) (other : β) : Scan β := do
  if ← nextIs (· == ':') then
    advance 1
    skipInlineWhitespace
    let value ← parseValue
    return ofValue (String.ofList value)
  else
    skipSetting
    return other

@[simp] theorem reads_parseSettingValue {β : Type} (ofValue : String → β) (other : β)
    (s : Scanner) : (parseSettingValue ofValue other).reads s = match colonValue? s.rest with
      | some (v, r) => (ofValue v, r)
      | none => (other, Text.skipSetting s.rest) := by
  cases hs : s.rest with
  | nil => simp [parseSettingValue, colonValue?, hs]
  | cons c r =>
    by_cases hc : c = ':'
    · subst hc; simp [parseSettingValue, colonValue?, hs]
    · simp [parseSettingValue, colonValue?, hs, hc]

/-! ## Settings of a column -/

/-- Goes on behind the word of a setting (the branches of `_parse_column_settings`). -/
def parseSettingOf : Option SettingWord → Scan ColumnSetting
  | some .primaryKey => return .primaryKey
  | some .primary => do
    if lower (← lookaheadWord) = "key" then advance 3
    return .primaryKey
  | some .not => do
    if lower (← parseBareWord) = "null" then return .notNull else return .other
  | some .null => return .nullable
  | some .unique => return .unique
  | some .increment => return .increment
  | some .defaultValue => parseSettingValue .defaultValue .other
  | some .note => parseSettingValue .note .other
  | some .reference => do
    let target ← parseInlineRef
    -- What follows the reference inside the brackets is dropped.
    skipUntil endsSettings
    return .reference target
  | none => do
    skipSetting
    return .other

/-- Behind the word for a key three characters were passed. -/
theorem drop_three_of_key {t : List Char} (h : lower (readWord t).1 = "key") :
    t.drop 3 = (readWord t).2 := by
  have hlength : (readWord t).1.length = 3 := by
    have := congrArg String.length h
    rwa [lower, String.length_ofList, List.length_map] at this
  have hrest := congrArg Prod.snd (readWord_eq t)
  rw [hlength] at hrest
  exact hrest.symm

@[simp] theorem reads_parseSettingOf (word : Option SettingWord) (s : Scanner) :
    (parseSettingOf word).reads s = readSettingOf word s.rest := by
  cases word with
  | none => simp [parseSettingOf, readSettingOf]
  | some word =>
    cases word with
    | primaryKey | null | unique | increment => simp [parseSettingOf, readSettingOf]
    | defaultValue | note => exact reads_parseSettingValue _ _ s
    | not => by_cases hnull : lower (readWord s.rest).1 = "null" <;>
        simp [parseSettingOf, readSettingOf, hnull]
    | primary =>
      by_cases hkey : lower (readWord s.rest).1 = "key"
      · simp [parseSettingOf, readSettingOf, hkey, drop_three_of_key hkey]
      · simp [parseSettingOf, readSettingOf, hkey]
    | reference => simp [parseSettingOf, readSettingOf]; rfl

/-- Reads a setting of a column. -/
def parseColumnSetting : Scan ColumnSetting := do
  let word ← parseBareWord
  if word.isEmpty then
    skipSetting
    return .other
  else
    skipInlineWhitespace
    parseSettingOf (SettingWord.ofWord? word)

/-- What is read as a setting of a column. -/
def readColumnSetting (t : List Char) : ColumnSetting × List Char :=
  if (readWord t).1.isEmpty then (.other, Text.skipSetting t) else readSetting t

theorem reads_parseColumnSetting (s : Scanner) :
    parseColumnSetting.reads s = readColumnSetting s.rest := by
  cases hw : (readWord s.rest).1 with
  | nil => simp [parseColumnSetting, readColumnSetting, hw, readWord_of_empty hw]
  | cons c w => simp [parseColumnSetting, readColumnSetting, hw, readSetting]

theorem columnSetting?_eq (t : List Char) : columnSetting? t = match skipSeparators t with
    | [] => none
    | c :: r => if endsSettings c then none else some (readColumnSetting (c :: r)) := by
  unfold columnSetting?
  cases hs : skipSeparators t with
  | nil => rfl
  | cons c r =>
    have hstay : skipInline (c :: r) = c :: r := by
      simp [skipInline, (skipSeparators_head hs).1]
    have hread : readColumnSetting (c :: r) = readSetting (c :: r) := by
      unfold readColumnSetting
      cases hw : (readWord (c :: r)).1 with
      | nil =>
        have hnone : SettingWord.ofWord? [] = none := by decide
        simp [readSetting, readSettingOf, hw, readWord_of_empty hw, hstay, hnone]
      | cons d w => simp
    dsimp only
    rw [hread]

/-- What a setting does to its column, and the reference from it that it adds to those of the
table. -/
def applySetting (table : String) (a : Column × List RelationDraft) (x : ColumnSetting) :
    Column × List RelationDraft :=
  (x.apply a.1, a.2 ++ (x.target?.map fun r =>
    ⟨none, .column ⟨table, a.1.id⟩, r.cardinality, r.target⟩).toList)

theorem columnSettingsTurn_advances (table : String) :
    Advances (settingsTurn parseColumnSetting (applySetting table)) :=
  settingsTurn_advances _ columnSetting?_eq reads_parseColumnSetting columnSetting?_progresses

/-- Reads the settings of a column and applies them, given what the columns before refer to
(`_parse_column_settings`). -/
def parseColumnSettings (table : String) (column : Column) (refs : List RelationDraft) :
    Scan (Column × List RelationDraft) := do
  advance 1
  let a ← loop (settingsTurn parseColumnSetting (applySetting table))
    (columnSettingsTurn_advances table) (column, refs)
  skipChar ']'
  return a

theorem id_apply (c : Column) (x : ColumnSetting) : (x.apply c).id = c.id := by cases x <;> rfl

theorem foldl_applySetting (table : String) (a : Column × List RelationDraft)
    (xs : List ColumnSetting) : xs.foldl (applySetting table) a =
      (xs.foldl ColumnSetting.apply a.1, a.2 ++ (xs.filterMap ColumnSetting.target?).map fun r =>
        ⟨none, .column ⟨table, a.1.id⟩, r.cardinality, r.target⟩) := by
  induction xs generalizing a with
  | nil => simp
  | cons x xs ih =>
    rw [List.foldl_cons, ih]
    cases ht : x.target? <;> simp [applySetting, id_apply, ht]

@[simp] theorem reads_parseColumnSettings (table : String) (column : Column)
    (refs : List RelationDraft) (s : Scanner) :
    (parseColumnSettings table column refs).reads s =
      ((readColumnSettings s.rest.tail).1.foldl (applySetting table) (column, refs),
        (readColumnSettings s.rest.tail).2) := by
  simp [parseColumnSettings, readColumnSettings,
    reads_loop_settings _ columnSetting?_eq reads_parseColumnSetting columnSetting?_progresses]

/-- Reads the settings behind the type of a column, if a bracket opens there (a part of
`_parse_column`). -/
def parseOptionalSettings (table : String) (column : Column) (refs : List RelationDraft) :
    Scan (Column × List RelationDraft) := do
  skipInlineWhitespace
  if ← nextIs (· == '[') then parseColumnSettings table column refs else return (column, refs)

@[simp] theorem reads_parseOptionalSettings (table : String) (column : Column)
    (refs : List RelationDraft) (s : Scanner) :
    (parseOptionalSettings table column refs).reads s =
      ((readOptionalSettings (skipInline s.rest)).1.foldl (applySetting table) (column, refs),
        (readOptionalSettings (skipInline s.rest)).2) := by
  unfold readOptionalSettings
  split
  · rename_i hs
    simp [parseOptionalSettings, hs]
  · rename_i hne
    simp [parseOptionalSettings, any_head?_eq_false hne]

/-! ## Settings of a table -/

/-- Reads a setting of a table. -/
def parseTableSetting : Scan TableSetting := do
  let word ← parseBareWord
  skipInlineWhitespace
  if lower word = "headercolor" then
    parseSettingValue .color .other
  else if lower word = "note" then
    parseSettingValue .note .other
  else
    skipSetting
    return .other

theorem reads_parseTableSetting (s : Scanner) :
    parseTableSetting.reads s = readTableSetting s.rest := by
  simp only [parseTableSetting, readTableSetting, readTableSettingOf, reads_bind,
    reads_parseBareWord, reads_skipInlineWhitespace, reads_ite, reads_parseSettingValue,
    reads_skipSetting, reads_pure, rest_run]
  cases colonValue? (skipInline (readWord s.rest).2) with
  | none => simp
  | some p => (repeat' split) <;> simp_all

/-- What the settings of a table say of its color and its note; the last of a kind wins. -/
structure TableSettings where
  color : Option String := none
  note : Option String := none

/-- What a setting adds to those before. -/
def TableSettings.add (a : TableSettings) : TableSetting → TableSettings
  | .color v => { a with color := some v }
  | .note v => { a with note := some v }
  | .other => a

theorem tableSettingsTurn_advances : Advances (settingsTurn parseTableSetting TableSettings.add) :=
  settingsTurn_advances _ (fun _ => rfl) reads_parseTableSetting tableSetting?_progresses

/-- Reads the settings of a table (`_parse_table_settings`). -/
def parseTableSettings : Scan TableSettings := do
  advance 1
  let a ← loop (settingsTurn parseTableSetting TableSettings.add) tableSettingsTurn_advances {}
  skipChar ']'
  return a

theorem reads_parseTableSettings (s : Scanner) : parseTableSettings.reads s =
    (many tableSetting? tableSetting?_progresses s.rest.tail).map (·.foldl TableSettings.add {})
      fun t => dropChar ']' (skipSeparators t) := by
  simp [parseTableSettings,
    reads_loop_settings _ (fun _ => rfl) reads_parseTableSetting tableSetting?_progresses]
  rfl

/-- Reads the settings in the header of a table, if a bracket opens there, and what is skipped
behind them (a part of `_parse_table`). -/
def parseHeaderSettings : Scan TableSettings := do
  if ← nextIs (· == '[') then
    let settings ← parseTableSettings
    skipWhitespace
    return settings
  else
    return {}

@[simp] theorem reads_parseHeaderSettings (s : Scanner) : parseHeaderSettings.reads s =
    (readTableSettings s.rest).map (·.foldl TableSettings.add {}) id := by
  unfold readTableSettings
  split
  · rename_i hs
    simp [parseHeaderSettings, reads_parseTableSettings, hs]
    rfl
  · rename_i hne
    simp [parseHeaderSettings, any_head?_eq_false hne]

end Dbml.Scan
