import Dbml.Proofs.Local

/-!
# Statements in front of the end

Columns, the lines of tables and of reference statements, and whole statements are read by local
readers: what is left of a text in front of its end has been read the same whatever stands behind
the text, at places that have that behind them.

Where a text ends within the line of a table, what stands behind must not open the block of a note
or of indexes: the first word of the line is looked at twice.

Results:
* `many_front_local`: a repetition that skips in front of each step is local;
* `columnLine_local`, `readLine_local`, `readHeader_local`, `readTable_local`, `readRefs_local`:
  the readers of lines, tables and reference statements are local;
* `readItem_local`: so is that of statements.
-/
namespace Dbml

open Text Outline

/-- The places in front of the end of a text with `x` behind it. -/
abbrev infrontOf (x : List Char) : List Char → List Char := (· ++ x)

/-! ## Repetitions behind skipped text -/

section Front

variable {α β : Type} {x : List Char} {f : α → α} {k : β → β} {skip : List Char → List Char}
  {step : List Char → Option (α × List Char)} (front : List Char → Option (α × List Char))
  (done : List α → List Char → β × List Char)

/-- A repetition that skips in front of each step and once more behind all is local, if what it does
there is. Where only skipped text is left, the step does not see what stands behind the text. -/
theorem many_front_local {p : Progresses step} (hskip : LocalSkip x skip)
    (hstep : ∀ s, step s = front (skip s)) (hsuffix : ∀ s a r, front s = some (a, r) → r <:+ s)
    (hfront : ∀ w, w ≠ [] → '\'' ∉ w → Option.Rel (Keeps x f) (front (w ++ x)) (front w))
    (hdone : ∀ as s, (done as s).2 <:+ s)
    (hend : ∀ as w, w ≠ [] → '\'' ∉ w → Keeps x k (done (as.map f) (w ++ x)) (done as w)) :
    Local x k fun s => done (many step p s).1 (skip (many step p s).2) := by
  refine many_local (f := f) (fun as s => done as (skip s))
    (fun as s => (hdone as _).trans (hskip.suffix s)) (fun w _ hq => ?_) fun as w _ hq _ _ => ?_
  · have hrest := hskip.remains w hq
    have hpasses : ∀ {y s : List Char}, skip s <:+ y →
        Passes y step (fun as s => done as (skip s)) s := by
      intro y s hs
      refine ⟨fun a r hr => ?_, fun _ as => (hdone as _).trans hs⟩
      rw [hstep] at hr
      exact (hsuffix _ a r hr).trans hs
    have hq' : '\'' ∉ skip w := fun h => hq ((hskip.suffix w).mem h)
    rw [hstep, hstep]
    generalize hs : skip (w ++ x) = t at hrest
    generalize hs' : skip w = t' at hrest hq'
    cases hrest with
    | front hne => exact .inl (hfront t' hne hq')
    | past h => exact .inr ⟨hpasses (hs ▸ h), hpasses (hs' ▸ List.suffix_rfl)⟩
  · have hrest := hskip.remains w hq
    have hq' : '\'' ∉ skip w := fun h => hq ((hskip.suffix w).mem h)
    generalize skip (w ++ x) = t at hrest
    generalize skip w = t' at hrest hq'
    cases hrest with
    | front hne => exact hend as t' hne hq'
    | past h => exact .past ((hdone _ t).trans h) (hdone as [])

end Front

/-! ## Settings -/

section Settings

variable {x : List Char} (hx : GapFront x)
include hx

theorem readSettingOf_local (word : Option SettingWord) : Local x id (readSettingOf word) := by
  have hother : Local x id fun s => (ColumnSetting.other, skipSetting s) :=
    (skipSetting_local hx).const rfl
  have hplain : ∀ setting : ColumnSetting, Local x id fun s => (setting, s) := fun _ =>
    LocalSkip.refl.const rfl
  have hword := readWord_append_gap hx
  rcases word with _ | word
  · exact hother
  · cases word with
    | primary =>
      refine .of_exact (readSettingOf_suffix _) fun w => ?_
      simp only [readSettingOf, hword]
      split <;> rfl
    | not =>
      refine .of_exact (readSettingOf_suffix _) fun w => ?_
      simp only [readSettingOf, hword]
    | defaultValue => exact valueOr_local hx ColumnSetting.defaultValue .other
    | note => exact valueOr_local hx ColumnSetting.note .other
    | reference =>
      exact (readInlineRef_local hx).map (g := ColumnSetting.reference) (fun _ => rfl)
        (dropWhile_local _)
    | _ => exact hplain _

theorem readSetting_local : Local x id readSetting :=
  (readWord_local hx).bind
    (fun word r => readSettingOf (SettingWord.ofWord? word) (skipInline r))
    (fun _ s => (readSettingOf_suffix _ _).trans (skipInline_suffix s))
    fun word w _ hq =>
      ((readSettingOf_local hx (SettingWord.ofWord? word)).after skipInline_local).keeps w hq

omit hx in
/-- Settings are read one by one up to the end of their brackets. -/
theorem settings_local {α : Type} {read : List Char → α × List Char}
    {step : List Char → Option (α × List Char)} {p : Progresses step} (hread : Local x id read)
    (hstep : ∀ s, step s = match skipSeparators s with
      | [] => none
      | c :: r => if endsSettings c then none else some (read (c :: r))) :
    Local x id fun s => (many step p s).map id fun r => dropChar ']' (skipSeparators r) := by
  refine many_front_local (f := id) (fun s => match s with
      | [] => none
      | c :: r => if endsSettings c then none else some (read (c :: r)))
    (fun as s => (as, dropChar ']' s)) skipSeparators_local hstep (fun s a r h => ?_)
    (fun w hne hq => ?_) (fun _ => dropChar_suffix ']')
    fun as w _ hq => ⟨fun _ => List.map_id as, (dropChar_local ']').remains w hq⟩
  · cases s with
    | nil => cases h
    | cons c s =>
      dsimp only at h
      split at h
      · cases h
      · have hsuffix := hread.suffix (c :: s)
        rw [Option.some.inj h] at hsuffix
        exact hsuffix
  · obtain ⟨c, w, rfl⟩ := List.exists_cons_of_ne_nil hne
    rw [List.cons_append]
    dsimp only
    split
    · exact .none
    · exact .some (hread.keeps (c :: w) hq)

theorem readColumnSettings_local : Local x id readColumnSettings :=
  settings_local (readSetting_local hx) fun _ => rfl

theorem readOptionalSettings_local : Local x id readOptionalSettings :=
  .of_char '[' (readColumnSettings_local hx) (LocalSkip.refl.const (a := []) rfl) rfl (fun _ => rfl)
    fun c hc t => by simp [readOptionalSettings, hc]

theorem readTableSettingOf_local (word : String) : Local x id (readTableSettingOf word) := by
  have hvalue : ∀ value : String → TableSetting,
      (∀ s, readTableSettingOf word s = valueOr value .other s) →
        Local x id (readTableSettingOf word) := by
    intro value h
    rw [funext h]
    exact valueOr_local hx value .other
  by_cases hc : word = "headercolor"
  · exact hvalue .color fun s => by
      unfold readTableSettingOf valueOr
      cases colonValue? s <;> simp [hc]
  by_cases hn : word = "note"
  · exact hvalue .note fun s => by
      unfold readTableSettingOf valueOr
      cases colonValue? s <;> simp [hn]
  · have hother : readTableSettingOf word = fun s => (.other, skipSetting s) := by
      funext s
      unfold readTableSettingOf
      cases colonValue? s <;> simp [hc, hn]
    rw [hother]
    exact (skipSetting_local hx).const rfl

theorem readTableSetting_local : Local x id readTableSetting :=
  (readWord_local hx).bind (fun word r => readTableSettingOf (lower word) (skipInline r))
    (fun _ s => (readTableSettingOf_suffix _ _).trans (skipInline_suffix s))
    fun word w _ hq =>
      ((readTableSettingOf_local hx (lower word)).after skipInline_local).keeps w hq

theorem readTableSettings_local : Local x id readTableSettings := by
  have hbrackets : Local x id fun s => ((many tableSetting? tableSetting?_progresses s).map id
      fun r => dropChar ']' (skipSeparators r)).map id skipFiller :=
    (settings_local (readTableSetting_local hx) fun _ => rfl).map (fun _ => rfl)
      (skipFiller_local hx)
  exact .of_char '[' hbrackets (LocalSkip.refl.const (a := []) rfl) rfl (fun _ => rfl)
    fun c hc t => by simp [readTableSettings, hc]

end Settings

/-! ## Lines -/

/-- A line of a reference statement, given what stands behind its first endpoint and its symbol. -/
def linkOf (source : ColumnName) (k : Cardinality) (v : EndpointText) (s : List Char) : RefLine :=
  match v with
  | .named target => .link ⟨source, k, target⟩
  | .composite => .composite
  | .malformed => .fault ⟨.noEndpoint, s⟩

/-- A line of a reference statement, given its first endpoint and the text behind it. -/
def linkFrom (v : EndpointText) (r : List Char) : RefLine × List Char :=
  match v with
  | .composite => (.composite, r)
  | .malformed => (.fault ⟨.noEndpoint, r⟩, r)
  | .named source =>
    match readSymbol? (skipInline r) with
    | none => (.fault ⟨.noRelationSymbol, skipInline r⟩, skipInline r)
    | some (k, t) => (linkOf source k (readEndpoint (skipInline t)).1
        (readEndpoint (skipInline t)).2, (readEndpoint (skipInline t)).2)

theorem scanRefLine_eq (s : List Char) :
    scanRefLine s = linkFrom (readEndpoint (skipInline s)).1 (readEndpoint (skipInline s)).2 := by
  unfold scanRefLine
  generalize readEndpoint (skipInline s) = p
  obtain ⟨v, r⟩ := p
  cases v with
  | composite => rfl
  | malformed => rfl
  | named source =>
    dsimp only [linkFrom]
    cases readSymbol? (skipInline r) with
    | none => rfl
    | some q =>
      obtain ⟨k, t⟩ := q
      dsimp only
      generalize readEndpoint (skipInline t) = p
      obtain ⟨w, u⟩ := p
      cases w <;> rfl

/-- The line of a column, given the text behind its type, where its id is drawn. -/
def typedColumn (name type s : List Char) : Line × List Char :=
  (readOptionalSettings (skipInline s)).map
    (fun settings => .column ⟨String.ofList name, String.ofList type, s, settings⟩) id

/-- The line of a column, given its type and the text behind it. -/
def typeColumn (name type t : List Char) : Line × List Char :=
  if type.isEmpty then (.fault ⟨.noColumnType (String.ofList name), t⟩, t)
  else typedColumn name type t

/-- The line of a column, given its name and the text behind it. -/
def nameColumn (name r : List Char) : Line × List Char :=
  if name.isEmpty then (.fault ⟨.noColumnName, r⟩, r)
  else typeColumn name (readType (skipInline r)).1 (readType (skipInline r)).2

theorem scanColumn_eq (s : List Char) :
    (scanColumn s).map lineOf id = nameColumn (readIdentifier s).1 (readIdentifier s).2 := by
  unfold scanColumn nameColumn typeColumn
  dsimp only
  split
  · rfl
  · split <;> rfl

theorem typedColumn_suffix (name type s : List Char) : (typedColumn name type s).2 <:+ s :=
  (readOptionalSettings_suffix _).trans (skipInline_suffix s)

theorem typeColumn_suffix (name type s : List Char) : (typeColumn name type s).2 <:+ s := by
  unfold typeColumn
  split
  · exact List.suffix_rfl
  · exact typedColumn_suffix name type s

theorem nameColumn_suffix (name s : List Char) : (nameColumn name s).2 <:+ s := by
  unfold nameColumn
  split
  · exact List.suffix_rfl
  · exact (typeColumn_suffix _ _ _).trans ((readType_suffix _).trans (skipInline_suffix s))

theorem wordLine?_suffix {word : String} {s r t : List Char} {l : Line} (hr : r <:+ s)
    (h : wordLine? word s r = some (l, t)) : t <:+ s := by
  unfold wordLine? at h
  split at h
  · split at h
    · obtain ⟨-, rfl⟩ := Prod.mk.inj (Option.some.inj h)
      exact skipBlock_suffix s
    · split at h
      · obtain ⟨-, rfl⟩ := Prod.mk.inj (Option.some.inj h)
        exact (dropLine_suffix _).trans ((readValue_suffix _).trans ((skipInline_suffix _).trans
          ((List.suffix_cons _ _).trans hr)))
      · cases h
    · cases h
  · cases h

theorem readLine_suffix (s : List Char) : (readLine s).2 <:+ s := by
  by_cases hslash : ∃ r, s = '/' :: r
  · obtain ⟨r, rfl⟩ := hslash
    exact (skipLine_suffix r).trans (List.suffix_cons '/' r)
  · cases s with
    | nil =>
      have hnil : readLine [] = columnLine [] := by
        show (wordLine? (lower []) [] (skipInline [])).getD (columnLine []) = _
        rw [wordLine?_nil]
        rfl
      rw [hnil, columnLine_snd]
      exact readColumn_suffix []
    | cons c s =>
      rw [readLine_of_ne_slash fun h => hslash ⟨s, by rw [h]⟩]
      cases hw : wordLine? (lower (readWord (c :: s)).1) (c :: s)
          (skipInline (readWord (c :: s)).2) with
      | none => exact columnLine_snd (c :: s) ▸ readColumn_suffix (c :: s)
      | some p => exact wordLine?_suffix ((skipInline_suffix _).trans (readWord_suffix _)) hw

section Lines

variable {x : List Char} (hx : GapFront x)
include hx

theorem typedColumn_local (name type : List Char) :
    Local x (Line.moved (infrontOf x)) (typedColumn name type) where
  suffix := typedColumn_suffix name type
  keeps w hq := by
    obtain ⟨hvalue, hrest⟩ := ((readOptionalSettings_local hx).after skipInline_local).keeps w hq
    exact ⟨fun hne => congrArg
      (fun l => Line.column ⟨String.ofList name, String.ofList type, w ++ x, l⟩) (hvalue hne),
      hrest⟩

theorem typeColumn_local (name type : List Char) :
    Local x (Line.moved (infrontOf x)) (typeColumn name type) where
  suffix := typeColumn_suffix name type
  keeps w hq := by
    unfold typeColumn
    split
    · exact ⟨fun _ => rfl, .append x w⟩
    · exact (typedColumn_local hx name type).keeps w hq

theorem nameColumn_local (name : List Char) :
    Local x (Line.moved (infrontOf x)) (nameColumn name) where
  suffix := nameColumn_suffix name
  keeps w hq := by
    have htype : Local x (Line.moved (infrontOf x)) fun s =>
        typeColumn name (readType s).1 (readType s).2 :=
      readType_local hx |>.bind (typeColumn name) (typeColumn_suffix name)
        fun type w _ hq => (typeColumn_local hx name type).keeps w hq
    unfold nameColumn
    split
    · exact ⟨fun _ => rfl, .append x w⟩
    · exact (htype.after skipInline_local).keeps w hq

theorem columnLine_local : Local x (Line.moved (infrontOf x)) columnLine := by
  have hscan : Local x (Line.moved (infrontOf x)) fun s => (scanColumn s).map lineOf id := by
    simp only [scanColumn_eq]
    exact (readIdentifier_local hx).bind nameColumn nameColumn_suffix
      fun name w _ hq => (nameColumn_local hx name).keeps w hq
  have heq : columnLine = fun s => ((scanColumn s).map lineOf id).map id dropLine :=
    funext columnLine_eq
  rw [heq]
  exact hscan.map (fun _ => rfl) (dropLine_local hx)

/-- The line that a word introduces, given that the word is followed in front of the end. -/
theorem wordLine?_keeps (word : String) {w r : List Char} (hw : '\'' ∉ w) (hr : r <:+ w)
    (hne : r ≠ []) :
    Option.Rel (Keeps x (Line.moved (infrontOf x))) (wordLine? word (w ++ x) (r ++ x))
      (wordLine? word w r) := by
  have hvalue : Local x (Line.moved (infrontOf x)) fun s =>
      (readValue (skipInline s)).map (fun v => .note (String.ofList v)) dropLine :=
    ((readValue_local hx).after skipInline_local).map (fun _ => rfl) (dropLine_local hx)
  obtain ⟨c, r, rfl⟩ := List.exists_cons_of_ne_nil hne
  rw [List.cons_append]
  by_cases hword : word = "indexes" ∨ word = "note"
  · by_cases hbrace : c = '{'
    · subst hbrace
      simp only [wordLine?, hword, if_true]
      exact .some ⟨fun _ => rfl, (skipBlock_local hx).remains w hw⟩
    by_cases hcolon : c = ':'
    · subst hcolon
      simp only [wordLine?, hword, if_true]
      split
      · exact .some (hvalue.keeps r fun h => hw (hr.mem (List.mem_cons_of_mem ':' h)))
      · exact .none
    · have hnone : ∀ s t, wordLine? word s (c :: t) = none := by
        intro s t; simp [wordLine?, hbrace, hcolon]
      rw [hnone, hnone]
      exact .none
  · simp only [wordLine?, hword, if_false]
    exact .none

/-- If a word is followed by nothing in front of the end, neither a brace nor a colon must stand
there. -/
theorem readLine_local (hopen : StopsAt (fun c => c == '{' || c == ':') (skipInline x)) :
    Local x (Line.moved (infrontOf x)) readLine := by
  refine .of_cons readLine_suffix fun c t hq => ?_
  by_cases hslash : c = '/'
  · subst hslash
    exact ⟨fun _ => rfl, skipLine_local.remains t (List.not_mem_of_not_mem_cons hq)⟩
  have hcolumn := (columnLine_local hx).keeps (c :: t) hq
  have hword := readWord_append_gap hx (c :: t)
  have hsuffix := (skipInline_suffix (readWord (c :: t)).2).trans (readWord_suffix (c :: t))
  have hskip : skipInline ((readWord (c :: t)).2 ++ x) =
      if (skipInline (readWord (c :: t)).2).isEmpty then skipInline x
      else skipInline (readWord (c :: t)).2 ++ x := List.dropWhile_append
  rw [List.cons_append] at hword hcolumn
  rw [readLine_of_ne_slash hslash, readLine_of_ne_slash hslash, hword, hskip]
  by_cases hr : skipInline (readWord (c :: t)).2 = []
  · have hnone : ∀ (s : List Char) {r : List Char}, StopsAt (fun c => c == '{' || c == ':') r →
        wordLine? (lower (readWord (c :: t)).1) s r = none := by
      intro s r hr
      cases r with
      | nil => simp [wordLine?]
      | cons d r =>
        have hd := stopsAt_cons.1 hr
        simp only [Bool.or_eq_false_iff, beq_eq_false_iff_ne] at hd
        simp [wordLine?, hd]
    rw [hr, List.isEmpty_nil, if_pos rfl, hnone _ hopen, hnone _ (stopsAt_nil _)]
    exact hcolumn
  · have hline := wordLine?_keeps hx (lower (readWord (c :: t)).1) hq hsuffix hr
    rw [if_neg (by simpa using hr)]
    rw [List.cons_append] at hline
    generalize wordLine? _ (c :: (t ++ x)) _ = o at hline ⊢
    generalize wordLine? _ (c :: t) _ = o' at hline ⊢
    cases hline with
    | none => exact hcolumn
    | some h => exact h

theorem readRefLine_local : Local x (RefLine.moved (infrontOf x)) readRefLine := by
  have hsymbol : ∀ source : ColumnName, Local x (RefLine.moved (infrontOf x)) fun s =>
      match readSymbol? s with
      | none => (.fault ⟨.noRelationSymbol, s⟩, s)
      | some (k, r) => (linkOf source k (readEndpoint (skipInline r)).1
          (readEndpoint (skipInline r)).2, (readEndpoint (skipInline r)).2) := fun source =>
    readSymbol?_local hx (fun s => .fault ⟨.noRelationSymbol, s⟩)
      (linkOf source) (fun _ => rfl) fun k v s => by cases v <;> rfl
  have hscan : Local x (RefLine.moved (infrontOf x)) scanRefLine := by
    rw [funext scanRefLine_eq]
    refine ((readEndpoint_local hx).after skipInline_local).bind linkFrom
      (fun v r => ?_) fun v w _ hq => ?_
    · cases v with
      | composite => exact List.suffix_rfl
      | malformed => exact List.suffix_rfl
      | named source => exact ((hsymbol source).after skipInline_local).suffix r
    · cases v with
      | composite => exact ⟨fun _ => rfl, .append x w⟩
      | malformed => exact ⟨fun _ => rfl, .append x w⟩
      | named source => exact ((hsymbol source).after skipInline_local).keeps w hq
  exact hscan.map (fun _ => rfl) (dropLine_local hx)

end Lines

/-! ## Blocks of lines -/

/-- The line at the front, given text that starts with no filler. None at a closing brace. -/
def frontLine? {α : Type} (read : List Char → α × List Char) (s : List Char) :
    Option (α × List Char) :=
  match s with
  | [] => none
  | '}' :: _ => none
  | c :: r => some (read (c :: r))

theorem frontLine?_suffix {α : Type} {read : List Char → α × List Char}
    (hread : ∀ s, (read s).2 <:+ s) {s r : List Char} {a : α}
    (h : frontLine? read s = some (a, r)) : r <:+ s := by
  unfold frontLine? at h
  split at h
  · cases h
  · cases h
  · rename_i c t _
    have hsuffix := hread (c :: t)
    rw [Option.some.inj h] at hsuffix
    exact hsuffix

theorem frontLine?_keeps {α : Type} {x : List Char} {f : α → α}
    {read : List Char → α × List Char} (hread : Local x f read) {w : List Char} (hne : w ≠ [])
    (hq : '\'' ∉ w) :
    Option.Rel (Keeps x f) (frontLine? read (w ++ x)) (frontLine? read w) := by
  obtain ⟨c, w, rfl⟩ := List.exists_cons_of_ne_nil hne
  by_cases hbrace : c = '}'
  · subst hbrace
    exact .none
  · have hsome : ∀ s, frontLine? read (c :: s) = some (read (c :: s)) := by
      intro s; simp [frontLine?]
    rw [List.cons_append, hsome, hsome]
    exact .some (hread.keeps (c :: w) hq)

/-- The lines of a block with the fault that it is not closed, given the text behind the filler at
its end, and the text behind the block. -/
def closeBlock {α : Type} (cause : Cause) (lines : List α) (s : List Char) :
    (List α × Option Fault) × List Char :=
  match s with
  | '}' :: t => ((lines, none), t)
  | t => ((lines, some ⟨cause, t⟩), t)

theorem closeBlock_suffix {α : Type} (cause : Cause) (lines : List α) (s : List Char) :
    (closeBlock cause lines s).2 <:+ s := by
  unfold closeBlock
  split
  · exact List.suffix_cons _ _
  · exact List.suffix_rfl

theorem closeBlock_append {α : Type} (cause : Cause) (as bs : List α) (s : List Char) :
    closeBlock cause (as ++ bs) s = (closeBlock cause bs s).map (Prod.map (as ++ ·) id) id := by
  unfold closeBlock
  split <;> rfl

/-- The lines of a table and how its block ends, from any of its lines on. -/
def readLines (s : List Char) : (List Line × Option Fault) × List Char :=
  closeBlock .noTableClosing (many line? line?_progresses s).1
    (skipFiller (many line? line?_progresses s).2)

/-- A table with its lines, given the text at which its body starts. -/
def tableItem (header : TableHeader) (body : List Char) (lines : List Line × Option Fault) :
    TableItem :=
  match lines.2 with
  | none => .table ⟨header, body, lines.1⟩
  | some f => .unclosed ⟨header, body, lines.1⟩ f

theorem tableItem_moved (f : List Char → List Char) (header : TableHeader) (body : List Char)
    (lines : List Line × Option Fault) :
    (tableItem header body lines).moved f = tableItem header (f body)
      (lines.map (List.map (Line.moved f)) (Option.map (Fault.moved f))) := by
  obtain ⟨lines, fault⟩ := lines
  cases fault <;> rfl

/-- A table behind its header is the block of its lines. -/
theorem readBody_eq (header : TableHeader) (s : List Char) :
    readBody header s = (readLines s).map (tableItem header s) id := by
  unfold readBody readLines closeBlock
  dsimp only
  rcases skipFiller (many line? line?_progresses s).2 with _ | ⟨c, t⟩
  · rfl
  · by_cases hbrace : c = '}'
    · subst hbrace; rfl
    · simp [tableItem, hbrace]

/-- A reference statement, given its name and the text behind it. -/
def namedRefs (name : Option String) (s : List Char) : RefItem × List Char :=
  match s with
  | ':' :: t => (readRefLine t).map (fun line => ⟨name, [line], none⟩) id
  | '{' :: t =>
    (closeBlock .noRefClosing (many blockRefLine? blockRefLine?_progresses t).1
      (skipFiller (many blockRefLine? blockRefLine?_progresses t).2)).map
        (fun p => ⟨name, p.1, p.2⟩) id
  | r => (⟨name, [], some ⟨.noRefOpening, r⟩⟩, skipLine r)

theorem namedRefs_suffix (name : Option String) (s : List Char) : (namedRefs name s).2 <:+ s := by
  unfold namedRefs
  split
  · exact (readRefLine_suffix _).trans (List.suffix_cons _ _)
  · exact (closeBlock_suffix _ _ _).trans ((skipFiller_suffix _).trans ((many_suffix _).trans
      (List.suffix_cons _ _)))
  · exact skipLine_suffix _

theorem readRefs_eq (s : List Char) :
    readRefs s = namedRefs (readRefName (skipInline s)).1 (readRefName (skipInline s)).2 := by
  unfold readRefs
  dsimp only
  generalize readRefName (skipInline s) = p
  obtain ⟨name, r⟩ := p
  rcases r with _ | ⟨c, t⟩
  · rfl
  by_cases hcolon : c = ':'
  · subst hcolon; rfl
  by_cases hbrace : c = '{'
  · subst hbrace
    simp only [namedRefs, closeBlock]
    generalize skipFiller (many blockRefLine? blockRefLine?_progresses t).2 = u
    rcases u with _ | ⟨d, u⟩
    · rfl
    · by_cases hd : d = '}'
      · subst hd; rfl
      · simp [hd]
  · simp [namedRefs, hcolon, hbrace]

section Blocks

variable {x : List Char} (hx : GapFront x)
include hx

/-- The lines of a block are read one by one up to its closing brace. -/
theorem block_local {α : Type} {f : α → α} {read : List Char → α × List Char}
    {step : List Char → Option (α × List Char)} {p : Progresses step} (hread : Local x f read)
    (hstep : ∀ s, step s = frontLine? read (skipFiller s)) (cause : Cause) :
    Local x (Prod.map (List.map f) (Option.map (Fault.moved (infrontOf x)))) fun s =>
      closeBlock cause (many step p s).1 (skipFiller (many step p s).2) := by
  refine many_front_local (frontLine? read) (closeBlock cause) (skipFiller_local hx) hstep
    (fun _ _ _ h => frontLine?_suffix hread.suffix h)
    (fun _ hne hq => frontLine?_keeps hread hne hq) (closeBlock_suffix cause) fun as w hne hq => ?_
  · obtain ⟨c, w, rfl⟩ := List.exists_cons_of_ne_nil hne
    by_cases hbrace : c = '}'
    · subst hbrace
      exact ⟨fun _ => rfl, .append x w⟩
    · have hopen : ∀ (as : List α) s, closeBlock cause as (c :: s) =
          ((as, some ⟨cause, c :: s⟩), c :: s) := by
        intro as s; simp [closeBlock, hbrace]
      rw [List.cons_append, hopen, hopen]
      exact ⟨fun _ => rfl, .append x (c :: w)⟩

end Blocks

/-! ## Tables -/

/-- What was read, or what went wrong, and the text where reading it ended. -/
def outcome {α : Type} : Except Fault (α × List Char) → Except Cause α × List Char
  | .ok (a, r) => (.ok a, r)
  | .error f => (.error f.cause, f.rest)

/-- The header of a table, given its settings and the text behind them. -/
def openedHeader (name : List Char) (aliasName : Option String) (settings : List TableSetting)
    (s : List Char) : Except Cause TableHeader × List Char :=
  match s with
  | '{' :: u => (.ok ⟨String.ofList name, aliasName, settings⟩, u)
  | u => (.error .noTableOpening, u)

/-- The header of a table, given its alias and the text behind it. -/
def aliasHeader (name : List Char) (a : Except Cause (Option String)) (s : List Char) :
    Except Cause TableHeader × List Char :=
  match a with
  | .ok aliasName => openedHeader name aliasName (readTableSettings s).1 (readTableSettings s).2
  | .error cause => (.error cause, s)

/-- The header of a table, given its name and the text behind it. -/
def nameHeader (name s : List Char) : Except Cause TableHeader × List Char :=
  if name.isEmpty then (.error .noTableName, s)
  else
    let p := outcome (readAlias name (skipFiller s))
    aliasHeader name p.1 p.2

theorem readHeader_eq (s : List Char) :
    outcome (readHeader s) =
      nameHeader (readIdentifier (skipFiller s)).1 (readIdentifier (skipFiller s)).2 := by
  unfold readHeader nameHeader
  dsimp only
  split
  · rfl
  · cases readAlias _ _ with
    | error f => rfl
    | ok p =>
      obtain ⟨a, t⟩ := p
      dsimp only [outcome, aliasHeader]
      generalize readTableSettings t = q
      obtain ⟨settings, u⟩ := q
      rcases u with _ | ⟨c, u⟩
      · rfl
      · by_cases hbrace : c = '{'
        · subst hbrace; rfl
        · simp [openedHeader, hbrace]

/-- A table, given its header and the text behind it. -/
def tableOf (header : Except Cause TableHeader) (r : List Char) : TableItem × List Char :=
  match header with
  | .ok header => readBody header r
  | .error cause => (.headless ⟨cause, r⟩, r)

theorem tableOf_suffix (header : Except Cause TableHeader) (r : List Char) :
    (tableOf header r).2 <:+ r := by
  cases header with
  | ok header => exact readBody_suffix header r
  | error cause => exact List.suffix_rfl

theorem readTable_eq (s : List Char) :
    readTable s = tableOf (outcome (readHeader s)).1 (outcome (readHeader s)).2 := by
  unfold readTable
  cases readHeader s <;> rfl

section Tables

variable {x : List Char} (hx : GapFront x)
include hx

theorem readAlias_local (table : List Char) :
    Local x id fun s => outcome (readAlias table s) where
  suffix s := by
    cases h : readAlias table s with
    | ok p => exact readAlias_ok_suffix h
    | error f => exact readAlias_error_suffix h
  keeps w hq := by
    have hname : Local x id fun s => outcome (if (readIdentifier s).1.isEmpty then
        .error ⟨.noTableAlias (String.ofList table), (readIdentifier s).2⟩
        else .ok (some (String.ofList (readIdentifier s).1), skipFiller (readIdentifier s).2)) := by
      refine (readIdentifier_local hx).bind (fun name t => outcome (if name.isEmpty then
          .error ⟨.noTableAlias (String.ofList table), t⟩
          else .ok (some (String.ofList name), skipFiller t))) (fun name t => ?_)
        fun name w _ hq => ?_
      · split
        · exact List.suffix_rfl
        · exact skipFiller_suffix t
      · dsimp only [id]
        split
        · exact ⟨fun _ => rfl, .append x w⟩
        · exact ⟨fun _ => rfl, (skipFiller_local hx).remains w hq⟩
    unfold readAlias
    rw [aliasWord?_append_gap hx]
    cases ha : aliasWord? w with
    | none => exact ⟨fun _ => rfl, .append x w⟩
    | some r =>
      exact (hname.after (skipFiller_local hx)).keeps r fun h => hq ((aliasWord?_suffix ha).mem h)

omit hx in
theorem openedHeader_local (name : List Char) (a : Option String) (settings : List TableSetting) :
    Local x id (openedHeader name a settings) :=
  .of_char '{' (LocalSkip.refl.const (a := .ok ⟨String.ofList name, a, settings⟩) rfl)
    (LocalSkip.refl.const (a := .error .noTableOpening) rfl) rfl (fun _ => rfl)
    fun c hc t => by simp [openedHeader, hc]

theorem aliasHeader_local (name : List Char) (a : Except Cause (Option String)) :
    Local x id (aliasHeader name a) := by
  cases a with
  | error cause => exact LocalSkip.refl.const rfl
  | ok a =>
    have hopened : ∀ settings, Local x id (openedHeader name a settings) :=
      openedHeader_local name a
    exact (readTableSettings_local hx).bind (openedHeader name a)
      (fun settings => (hopened settings).suffix)
      fun settings w _ hq => (hopened settings).keeps w hq

theorem nameHeader_local (name : List Char) : Local x id (nameHeader name) := by
  have halias : Local x id fun s => aliasHeader name (outcome (readAlias name s)).1
      (outcome (readAlias name s)).2 :=
    (readAlias_local hx name).bind (aliasHeader name)
      (fun a => (aliasHeader_local hx name a).suffix)
      fun a w _ hq => (aliasHeader_local hx name a).keeps w hq
  unfold nameHeader
  cases name.isEmpty with
  | true => exact LocalSkip.refl.const rfl
  | false => exact halias.after (skipFiller_local hx)

theorem readHeader_local : Local x id fun s => outcome (readHeader s) := by
  simp only [readHeader_eq]
  exact ((readIdentifier_local hx).after (skipFiller_local hx)).bind nameHeader
    (fun name => (nameHeader_local hx name).suffix)
    fun name w _ hq => (nameHeader_local hx name).keeps w hq

variable (hopen : StopsAt (fun c => c == '{' || c == ':') (skipInline x))
include hopen

theorem readLines_local : Local x (Prod.map (List.map (Line.moved (infrontOf x)))
    (Option.map (Fault.moved (infrontOf x)))) readLines :=
  block_local hx (readLine_local hx hopen) (fun _ => rfl) .noTableClosing

theorem readBody_local (header : TableHeader) :
    Local x (TableItem.moved (infrontOf x)) (readBody header) where
  suffix := readBody_suffix header
  keeps w hq := by
    obtain ⟨hvalue, hrest⟩ := (readLines_local hx hopen).keeps w hq
    rw [readBody_eq, readBody_eq]
    refine ⟨fun hne => ?_, hrest⟩
    rw [Prod.map_fst, Prod.map_fst, hvalue hne, tableItem_moved]

theorem readTable_local : Local x (TableItem.moved (infrontOf x)) readTable := by
  rw [funext readTable_eq]
  refine (readHeader_local hx).bind tableOf tableOf_suffix fun header w _ hq => ?_
  cases header with
  | ok header => exact (readBody_local hx hopen header).keeps w hq
  | error cause => exact ⟨fun _ => rfl, .append x w⟩

end Tables

/-! ## Statements -/

section Statements

variable {x : List Char} (hx : GapFront x)
include hx

theorem readRefName_local : Local x id readRefName := by
  have hname : Local x id fun s => (readIdentifier s).map
      (fun n => if n.isEmpty then none else some (String.ofList n)) skipInline :=
    (readIdentifier_local hx).map (fun _ => rfl) skipInline_local
  refine .of_cons readRefName_suffix fun c t hq => ?_
  by_cases hend : c = ':' ∨ c = '{'
  · rcases hend with rfl | rfl
    · exact ⟨fun _ => rfl, .append x (':' :: t)⟩
    · exact ⟨fun _ => rfl, .append x ('{' :: t)⟩
  · have hc : ∀ s, readRefName (c :: s) = (readIdentifier (c :: s)).map
        (fun n => if n.isEmpty then none else some (String.ofList n)) skipInline := by
      intro s
      exact readRefName_of_ne (by simp_all) (by simp_all)
    rw [hc, hc]
    exact hname.keeps (c :: t) hq

theorem namedRefs_local (name : Option String) :
    Local x (RefItem.moved (infrontOf x)) (namedRefs name) := by
  have hblock := block_local (p := blockRefLine?_progresses) hx (readRefLine_local hx)
    (fun _ => rfl) .noRefClosing
  refine .of_cons (namedRefs_suffix name) fun c t hq => ?_
  have hq' := List.not_mem_of_not_mem_cons hq
  by_cases hcolon : c = ':'
  · subst hcolon
    obtain ⟨hvalue, hrest⟩ := (readRefLine_local hx).keeps t hq'
    exact ⟨fun hne => congrArg (fun l => RefItem.mk name [l] none) (hvalue hne), hrest⟩
  by_cases hbrace : c = '{'
  · subst hbrace
    obtain ⟨hvalue, hrest⟩ := hblock.keeps t hq'
    exact ⟨fun hne => congrArg (fun p : List RefLine × Option Fault => RefItem.mk name p.1 p.2)
      (hvalue hne), hrest⟩
  · have hfault : ∀ s, namedRefs name (c :: s) =
        (⟨name, [], some ⟨.noRefOpening, c :: s⟩⟩, skipLine (c :: s)) := by
      intro s; simp [namedRefs, hcolon, hbrace]
    rw [hfault, hfault]
    exact ⟨fun _ => rfl, skipLine_local.remains (c :: t) hq⟩

theorem readRefs_local : Local x (RefItem.moved (infrontOf x)) readRefs := by
  rw [funext readRefs_eq]
  exact ((readRefName_local hx).after skipInline_local).bind namedRefs
    namedRefs_suffix fun name w _ hq => (namedRefs_local hx name).keeps w hq

/-- A statement that is over in front of the end of a text is read the same whatever stands behind
the text. -/
theorem readItem_local (hopen : StopsAt (fun c => c == '{' || c == ':') (skipInline x)) :
    Local x (Item.moved (infrontOf x)) readItem where
  suffix := readItem_suffix
  keeps w hq := by
    have hword : ∀ {word : String}, word.toList.all (fun c => !isGap c.toLower) = true →
        keyword? word (w ++ x) = (keyword? word w).map (· ++ x) := fun hk =>
      keyword?_append_gap hx hk w
    have hskipped : (skippedWords.any fun word => (keyword? word (w ++ x)).isSome) =
        skippedWords.any fun word => (keyword? word w).isSome := by
      simp only [skippedWords, List.any_cons, List.any_nil]
      rw [hword (by decide), hword (by decide), hword (by decide)]
      simp only [Option.isSome_map]
    unfold readItem
    rw [hword (by decide), hword (by decide), hskipped]
    cases ht : keyword? "Table" w with
    | some r =>
      obtain ⟨hvalue, hrest⟩ := (readTable_local hx hopen).keeps r
        fun h => hq ((keyword?_suffix ht).mem h)
      exact ⟨fun hne => congrArg Item.table (hvalue hne), hrest⟩
    | none =>
      cases hr : keyword? "Ref" w with
      | some r =>
        obtain ⟨hvalue, hrest⟩ := (readRefs_local hx).keeps r
          fun h => hq ((keyword?_suffix hr).mem h)
        exact ⟨fun hne => congrArg Item.refs (hvalue hne), hrest⟩
      | none =>
        dsimp only [Option.map_none]
        split
        · exact ⟨fun _ => rfl, (skipBlock_local hx).remains w hq⟩
        · exact ⟨fun _ => rfl, skipLine_local.remains w hq⟩

end Statements

end Dbml
