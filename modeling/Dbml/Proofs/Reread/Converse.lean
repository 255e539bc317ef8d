import Dbml.Proofs.Reread.Document
import Dbml.Proofs.Supply

/-!
# What must be plain to be read back

Types are written as they are, and what is read in their place is the type again only if it can be
told from what stands behind it. A type that starts with a double quote never is: in its place a
quoted token is read, and that would have to hold a double quote for which there is no escape.

Results:
* `quotedChars_ne`: no text is the token that is read behind a double quote in it;
* `typeRereads_of_readType`: a type that is read back is plain, or it has an unclosed parameter and
  ends its line;
* `rereadable_of_read`: if the tables of a schema are read without faults and with the types that
  they have, all these types are of the two kinds.
-/
namespace Dbml

/-- The types of a table's columns, in order. -/
def Table.types (t : Table) : List String := t.columns.map (·.type)

/-- The types of a table's columns, as its text has them. -/
def Outline.TableDraft.types (d : Outline.TableDraft) : List String := d.columns.map (·.type)

/-- The table that a statement introduces and closes. -/
def Outline.Item.closed? : Outline.Item → Option Outline.TableDraft
  | .table (.table d) => some d
  | _ => none

namespace Canonical

open Text Outline

/-! ## Double quotes -/

/-- A text in which, taken from the front, a backslash escapes no double quote. -/
inductive NoEscapedQuote : List Char → Prop
  | nil : NoEscapedQuote []
  | char {c : Char} {s : List Char} (hc : c ≠ '\\') (h : NoEscapedQuote s) : NoEscapedQuote (c :: s)
  | escape {c : Char} {s : List Char} (hc : c ≠ '"') (h : NoEscapedQuote s) :
    NoEscapedQuote ('\\' :: c :: s)

theorem NoEscapedQuote.append {s t : List Char} (hs : NoEscapedQuote s) (ht : NoEscapedQuote t) :
    NoEscapedQuote (s ++ t) := by
  induction hs with
  | nil => exact ht
  | char hc _ ih => exact .char hc ih
  | escape hc _ ih => exact .escape hc ih

theorem noEscapedQuote_of_not_mem {s : List Char} (h : '\\' ∉ s) : NoEscapedQuote s := by
  induction s with
  | nil => exact .nil
  | cons c s ih =>
    simp only [List.mem_cons, not_or] at h
    exact .char (Ne.symm h.1) (ih h.2)

theorem noEscapedQuote_escape (v : List Char) : NoEscapedQuote (v.flatMap escapeChar) := by
  induction v with
  | nil => exact .nil
  | cons c v ih =>
    rw [List.flatMap_cons]
    refine NoEscapedQuote.append ?_ ih
    by_cases h : c = '\'' ∨ c = '\\'
    · have he : escapeChar c = ['\\', c] := by rcases h with rfl | rfl <;> rfl
      have hq : c ≠ '"' := by rcases h with rfl | rfl <;> decide
      rw [he]
      exact .escape hq .nil
    · obtain ⟨hq, hb⟩ := not_or.1 h
      have he : escapeChar c = [c] := by simp [escapeChar, hq, hb]
      rw [he]
      exact .char hb .nil

theorem noEscapedQuote_literal (v : String) : NoEscapedQuote (literal v).toList := by
  rw [toList_literal]
  exact .char (by decide) ((noEscapedQuote_escape _).append (.char (by decide) .nil))

theorem of_mem_ite {α : Type} {P : α → Prop} {p : Prop} [Decidable p] {a : α} (h : P a) :
    ∀ b ∈ (if p then [a] else []), P b := by
  intro b hb
  split at hb
  · rw [List.mem_singleton.1 hb]; exact h
  · simp at hb

theorem noEscapedQuote_settings (c : Column) : ∀ t ∈ settings c, NoEscapedQuote t.toList := by
  have hliteral : ∀ (word : String), '\\' ∉ word.toList → ∀ v : String,
      NoEscapedQuote (word ++ literal v).toList := by
    intro word hw v
    rw [String.toList_append]
    exact (noEscapedQuote_of_not_mem hw).append (noEscapedQuote_literal v)
  have hword : ∀ (p : Prop) [Decidable p] (word : String), '\\' ∉ word.toList →
      ∀ t ∈ (if p then [word] else []), NoEscapedQuote t.toList := fun _ _ _ hw =>
    of_mem_ite (P := fun t : String => NoEscapedQuote t.toList) (noEscapedQuote_of_not_mem hw)
  intro t ht
  simp only [settings, List.mem_append] at ht
  rcases ht with ((((h | h) | h) | h) | h) | h
  · exact hword _ _ (by decide) t h
  · exact hword _ _ (by decide) t h
  · exact hword _ _ (by decide) t h
  · exact hword _ _ (by decide) t h
  · cases hd : c.defaultValue with
    | none => simp [hd] at h
    | some v =>
      simp only [hd, List.mem_singleton] at h
      rw [h]
      exact hliteral _ (by decide) v
  · cases hn : c.note with
    | none => simp [hn] at h
    | some v =>
      by_cases hv : v = ""
      · simp [hn, hv] at h
      · simp only [hn, hv, if_false, List.mem_singleton] at h
        rw [h]
        exact hliteral _ (by decide) v

theorem noEscapedQuote_joined {ts : List String} (h : ∀ t ∈ ts, NoEscapedQuote t.toList) :
    NoEscapedQuote (joined ", " ts).toList := by
  induction ts with
  | nil => exact .nil
  | cons t ts ih =>
    have ht := h t List.mem_cons_self
    have hts := ih fun u hu => h u (List.mem_cons_of_mem _ hu)
    cases ts with
    | nil => exact ht
    | cons u ts =>
      rw [joined, String.toList_append, String.toList_append]
      exact (ht.append (noEscapedQuote_of_not_mem (by decide))).append hts

theorem quotedChar?_plain {c : Char} (h : c ≠ '"' ∧ c ≠ '\n' ∧ c ≠ '\\') (s : List Char) :
    quotedChar? '"' (c :: s) = some (c, s) := by
  simp [quotedChar?, h]

theorem quotedChar?_escape {c : Char} (h : c ≠ '\n') (s : List Char) :
    quotedChar? '"' ('\\' :: c :: s) = some (c, s) := by
  simp [quotedChar?, h]

theorem quotedChars_newline (s : List Char) : quotedChars '"' ('\n' :: s) = ([], '\n' :: s) :=
  quotedChars_of_none (by simp [quotedChar?])

theorem quotedChars_plain {c : Char} (h : c ≠ '"' ∧ c ≠ '\n' ∧ c ≠ '\\') (s : List Char) :
    (quotedChars '"' (c :: s)).1 = c :: (quotedChars '"' s).1 := by
  rw [quotedChars_of_some (quotedChar?_plain h s)]

theorem quotedChars_escaped {c : Char} (h : c ≠ '\n') (s : List Char) :
    (quotedChars '"' ('\\' :: c :: s)).1 = c :: (quotedChars '"' s).1 := by
  rw [quotedChars_of_some (quotedChar?_escape h s)]

/-- A backslash at the end of a line stands for itself. -/
theorem quotedChars_backslash {s : List Char} (h : ∀ c ∈ s.head?, c = '\n') :
    (quotedChars '"' ('\\' :: s)).1 = ['\\'] := by
  cases s with
  | nil =>
    have hstep : quotedChar? '"' ['\\'] = some ('\\', []) := by simp [quotedChar?]
    rw [quotedChars_of_some hstep, quotedChars_of_none rfl]
  | cons c s =>
    obtain rfl := h c rfl
    have hstep : quotedChar? '"' ('\\' :: '\n' :: s) = some ('\\', '\n' :: s) := by
      simp [quotedChar?]
    rw [quotedChars_of_some hstep, quotedChars_newline]

/-- How a token in double quotes is read from a character on: it ends there, or with a backslash at
the end of the line, or it goes on behind an escaped character or a plain one. -/
theorem quotedChars_cases (c : Char) (s : List Char) :
    (quotedChars '"' (c :: s)).1 = [] ∨
      (c = '\\' ∧ (quotedChars '"' (c :: s)).1 = ['\\']) ∨
      (∃ d u, c = '\\' ∧ s = d :: u ∧ d ≠ '\n' ∧
        (quotedChars '"' (c :: s)).1 = d :: (quotedChars '"' u).1) ∨
      (c ≠ '"' ∧ c ≠ '\n' ∧ c ≠ '\\' ∧
        (quotedChars '"' (c :: s)).1 = c :: (quotedChars '"' s).1) := by
  by_cases hq : c = '"'
  · subst hq; exact .inl (congrArg Prod.fst (quotedChars_quote '"' s))
  · by_cases hn : c = '\n'
    · subst hn; exact .inl (congrArg Prod.fst (quotedChars_newline s))
    · by_cases hb : c = '\\'
      · subst hb
        refine .inr ?_
        cases s with
        | nil => exact .inl ⟨rfl, quotedChars_backslash (by simp)⟩
        | cons d u =>
          by_cases hd : d = '\n'
          · exact .inl ⟨rfl, quotedChars_backslash (by simpa using hd)⟩
          · exact .inr (.inl ⟨d, u, rfl, rfl, hd, quotedChars_escaped hd u⟩)
      · exact .inr (.inr (.inr ⟨hq, hn, hb, quotedChars_plain ⟨hq, hn, hb⟩ s⟩))

/-- A token in double quotes that starts in such a text and goes no further than its line holds no
double quote. -/
theorem NoEscapedQuote.not_mem_quotedChars {w : List Char} (h : NoEscapedQuote w) (s : List Char) :
    '"' ∉ (quotedChars '"' (w ++ '\n' :: s)).1 := by
  induction h with
  | nil => rw [List.nil_append, quotedChars_newline]; exact List.not_mem_nil
  | @char c w hc _ ih =>
    rw [List.cons_append]
    rcases quotedChars_cases c (w ++ '\n' :: s) with
      h | ⟨rfl, -⟩ | ⟨-, -, rfl, -⟩ | ⟨hq, -, -, h⟩
    · rw [h]; exact List.not_mem_nil
    · exact absurd rfl hc
    · exact absurd rfl hc
    · rw [h]; exact List.not_mem_cons_of_ne_of_not_mem (Ne.symm hq) ih
  | @escape c w hc _ ih =>
    by_cases hn : c = '\n'
    · subst hn
      rw [List.cons_append, List.cons_append, quotedChars_backslash (by simp)]
      simp
    · rw [List.cons_append, List.cons_append, quotedChars_escaped hn]
      exact List.not_mem_cons_of_ne_of_not_mem (Ne.symm hc) ih

/-- A text that a token in double quotes is read from without coming upon a double quote, also
where its first character is escaped. -/
structure QuoteFree (t : List Char) : Prop where
  plain : '"' ∉ (quotedChars '"' t).1
  escaped : ∀ c u, t = c :: u → c ≠ '\n' → c ≠ '"' ∧ '"' ∉ (quotedChars '"' u).1

/-- No text is the token that is read behind a double quote in it. The induction is on the text `r`
behind that quote, `p` being what is still to be read before `r` comes: it holds a double quote as
long as only `r` is read, and behind `r` there is none to read. -/
theorem quotedChars_ne {t : List Char} (ht : QuoteFree t) {p : List Char} (hp : '"' ∈ p)
    (r : List Char) : (quotedChars '"' (r ++ t)).1 ≠ p ++ r := by
  induction hn : r.length using Nat.strongRecOn generalizing r p with
  | _ n ih =>
    intro he
    obtain ⟨d, p, rfl⟩ := List.exists_cons_of_ne_nil (List.ne_nil_of_mem hp)
    cases r with
    | nil =>
      rw [List.nil_append, List.append_nil] at he
      exact ht.plain (he ▸ hp)
    | cons c r =>
      rw [List.cons_append, List.cons_append] at he
      rcases quotedChars_cases c (r ++ t) with
        h | ⟨-, h⟩ | ⟨e, u, rfl, hu, hen, h⟩ | ⟨hq, -, -, h⟩
      · rw [h] at he; simp at he
      · have hlen := congrArg List.length (h.symm.trans he)
        simp at hlen
      · rw [h] at he
        obtain ⟨rfl, hrest⟩ := List.cons.inj he
        cases r with
        | nil =>
          -- The backslash ends `r`, so the character that it escapes stands behind.
          obtain ⟨heq, hmem⟩ := ht.escaped e u hu hen
          rcases List.mem_cons.1 hp with h | h
          · exact heq h.symm
          · exact hmem (hrest ▸ List.mem_append_left _ h)
        | cons k r =>
          rw [List.cons_append] at hu
          obtain ⟨rfl, rfl⟩ := List.cons.inj hu
          have hp' : '"' ∈ p ++ ['\\', k] := by
            rcases List.mem_cons.1 hp with h | h
            · rw [h]; simp
            · exact List.mem_append_left _ h
          refine ih r.length ?_ hp' r rfl ?_
          · rw [← hn, List.length_cons, List.length_cons]; omega
          · rw [hrest, List.append_assoc]; rfl
      · rw [h] at he
        obtain ⟨rfl, hrest⟩ := List.cons.inj he
        have hp' : '"' ∈ p ++ [c] := by
          rcases List.mem_cons.1 hp with h | h
          · exact absurd h.symm hq
          · exact List.mem_append_left _ h
        refine ih r.length ?_ hp' r rfl ?_
        · rw [← hn, List.length_cons]; omega
        · rw [hrest, List.append_assoc]; rfl

/-! ## Types -/

/-- Behind the type of a column stand its settings, in which no double quote is escaped. -/
theorem quoteFree_brackets (c : Column) (s : List Char) :
    QuoteFree ((brackets (settings c)).toList ++ '\n' :: s) := by
  have hset := noEscapedQuote_settings c
  cases hc : settings c with
  | nil =>
    refine ⟨NoEscapedQuote.nil.not_mem_quotedChars s, fun d u he hd => ?_⟩
    exact absurd (List.cons.inj he).1.symm hd
  | cons t ts =>
    rw [hc] at hset
    have hbody : NoEscapedQuote ('[' :: ((joined ", " (t :: ts)).toList ++ [']'])) :=
      .char (by decide) ((noEscapedQuote_joined hset).append (.char (by decide) .nil))
    rw [toList_brackets_cons]
    refine ⟨(NoEscapedQuote.char (by decide) hbody).not_mem_quotedChars s, fun d u he _ => ?_⟩
    obtain ⟨rfl, rfl⟩ := List.cons.inj he
    exact ⟨by decide, hbody.not_mem_quotedChars s⟩

/-- What is read behind a double quote in a type is not the type. -/
theorem readQuoted_ne_type {c : Column} {s t : List Char}
    (h : skipInline (c.type.toList ++ ((brackets (settings c)).toList ++ '\n' :: s)) = '"' :: t) :
    (readQuoted ('"' :: t)).1 ≠ c.type.toList := by
  have hfree := quoteFree_brackets c s
  have hhead := head?_skipInline_brackets (settings c) s
  generalize (brackets (settings c)).toList ++ '\n' :: s = tail at h hfree hhead
  unfold skipInline at h
  rw [List.dropWhile_append] at h
  cases hd : c.type.toList.dropWhile isInlineSpace with
  | nil =>
    rw [hd] at h
    change skipInline tail = _ at h
    rw [h] at hhead
    simp at hhead
  | cons q r =>
    rw [hd] at h
    obtain ⟨rfl, rfl⟩ := List.cons.inj h
    have htype : c.type.toList = (c.type.toList.takeWhile isInlineSpace ++ ['"']) ++ r := by
      rw [List.append_assoc, List.singleton_append, ← hd, List.takeWhile_append_dropWhile]
    rw [readQuoted_of_ne (by decide), Prod.map_fst, id]
    rw [htype]
    exact quotedChars_ne hfree (by simp) r

/-- A type that is read back is plain, or it has an unclosed parameter and ends its line. -/
theorem typeRereads_of_readType {c : Column} (hne : c.type.toList ≠ []) {s t : List Char}
    (h : readType (skipInline (c.type.toList ++ ((brackets (settings c)).toList ++ '\n' :: s))) =
      (c.type.toList, t)) : c.TypeRereads := by
  have hq : (skipInline (c.type.toList ++ ((brackets (settings c)).toList ++ '\n' :: s))).head? ≠
      some '"' := by
    intro hq
    obtain ⟨u, hu⟩ := List.head?_eq_some_iff.1 hq
    have hread := congrArg Prod.fst h
    rw [hu] at hread
    exact readQuoted_ne_type hu hread
  rw [readType_of_no_quote hq] at h
  refine (plain_of_readBareType hne hq h).imp_right fun ⟨ho, hend⟩ => ⟨?_, ho⟩
  cases hc : settings c with
  | nil => rfl
  | cons u us =>
    rw [hc, toList_brackets_cons] at hend
    exact absurd (hend ' ' rfl) (by decide)

/-! ## Lines -/

/-- A column whose line is read as that of a column with its name, though perhaps not with its
type. -/
structure ColumnLine (c : Column) : Prop where
  name : PlainName c.name
  type : c.type.toList ≠ []
  line : ¬c.LooksSpecial

theorem ColumnLine.rereadable {c : Column} (h : ColumnLine c) (ht : c.TypeRereads) :
    c.Rereadable := ⟨h.name, ht, h.line⟩

/-- Where a column with that type is read from a column's line, the type is read back. -/
theorem typeRereads_of_line? {c : Column} (h : ColumnLine c) {s r : List Char} {d : ColumnDraft}
    (hl : line? ((column c).toList ++ '\n' :: s) = some (.column d, r)) (ht : d.type = c.type) :
    c.TypeRereads := by
  rw [line?_columnBody h.name h.line] at hl
  have hline := Option.some.inj hl
  have hname := readIdentifier_identifier h.name.no_backtick h.name.no_newline
    (s := ' ' :: (c.type.toList ++ ((brackets (settings c)).toList ++ '\n' :: s)))
    (stopsAt_cons.2 (by decide))
  have hbody : columnBody c ++ '\n' :: s = (identifier c.name).toList ++
      ' ' :: (c.type.toList ++ ((brackets (settings c)).toList ++ '\n' :: s)) := by
    simp [columnBody]
  cases hscan : scanColumn (columnBody c ++ '\n' :: s) with
  | mk e u =>
    simp only [columnLine, readColumn, hscan, Prod.map_apply, id] at hline
    cases e with
    | error f => simp at hline
    | ok k =>
      obtain rfl := Line.column.inj (Prod.mk.inj hline).1
      simp only [scanColumn, hbody, hname, List.isEmpty_iff, h.name.ne_nil, if_false] at hscan
      split at hscan
      · simp at hscan
      · have hk := congrArg ColumnDraft.type (Except.ok.inj (Prod.mk.inj hscan).1)
        have htype : (readType (skipInline (' ' :: (c.type.toList ++
            ((brackets (settings c)).toList ++ '\n' :: s))))).1 = c.type.toList := by
          have hlist := congrArg String.toList (hk.trans ht)
          rwa [String.toList_ofList] at hlist
        exact typeRereads_of_readType (s := s) h.type (Prod.ext htype rfl)

theorem columnLine_cases (s : List Char) :
    (∃ f, (columnLine s).1 = .fault f) ∨ ∃ d, (columnLine s).1 = .column d := by
  unfold columnLine
  split
  · exact .inr ⟨_, rfl⟩
  · exact .inl ⟨_, rfl⟩

theorem line?_isSome {c : Column} (h : ColumnLine c) (s : List Char) :
    ∃ l r, line? ((column c).toList ++ '\n' :: s) = some (l, r) ∧
      ((∃ f, l = .fault f) ∨ ∃ d, l = .column d) := by
  exact ⟨_, _, line?_columnBody h.name h.line s, columnLine_cases _⟩

/-- Where the lines of columns are read without faults, as columns with those types, all types are
read back. -/
theorem typesReread_of_lines {cs : List Column} (h : ∀ c ∈ cs, ColumnLine c) (s : List Char)
    (hf : ∀ l ∈ (many line? line?_progresses (columnLines cs ++ '}' :: s)).1, ∀ f, l ≠ .fault f)
    (ht : ((many line? line?_progresses (columnLines cs ++ '}' :: s)).1.filterMap
      Line.column?).map (·.type) = cs.map (·.type)) : ∀ c ∈ cs, c.TypeRereads := by
  induction cs with
  | nil => simp
  | cons c cs ih =>
    have hsplit : columnLines (c :: cs) ++ '}' :: s =
        (column c).toList ++ '\n' :: (columnLines cs ++ '}' :: s) := by
      simp [columnLines]
    obtain ⟨l, r, hl, hcases⟩ :=
      line?_isSome (h c List.mem_cons_self) (columnLines cs ++ '}' :: s)
    rw [hsplit, many_of_some hl] at hf ht
    obtain ⟨f, rfl⟩ | ⟨d, rfl⟩ := hcases
    · exact absurd rfl (hf _ List.mem_cons_self f)
    · have htypes := List.cons.inj ht
      have hc := typeRereads_of_line? (h c List.mem_cons_self) hl htypes.1
      -- The line is read back, so reading goes on behind it.
      obtain ⟨d', hd', -⟩ := line?_column ((h c List.mem_cons_self).rereadable hc)
        (columnLines cs ++ '}' :: s)
      obtain ⟨-, rfl⟩ := Prod.mk.inj (Option.some.inj (hl.symm.trans hd'))
      intro k hk
      rcases List.mem_cons.1 hk with rfl | hk
      · exact hc
      · exact ih (fun m hm => h m (List.mem_cons_of_mem _ hm))
          (fun m hm => hf m (List.mem_cons_of_mem _ hm)) htypes.2 k hk

/-! ## Tables -/

/-- A table whose text is read as that of a table with its name, though perhaps not with the types
of its columns. -/
structure TableLines (t : Table) : Prop where
  name : PlainName t.name
  aliasName : PlainOption t.aliasName
  columns : ∀ c ∈ t.columns, ColumnLine c

theorem TableLines.rereadable {t : Table} (h : TableLines t)
    (ht : ∀ c ∈ t.columns, c.TypeRereads) : t.Rereadable :=
  ⟨h.name, h.aliasName, fun c hc => (h.columns c hc).rereadable (ht c hc)⟩

theorem no_fault_of_events {ls : List Line}
    (h : (ls.flatMap Line.events).filterMap Event.fault? = []) : ∀ l ∈ ls, ∀ f, l ≠ .fault f := by
  intro l hl f he
  have hmem : Event.fault f ∈ ls.flatMap Line.events :=
    List.mem_flatMap.2 ⟨l, hl, by rw [he]; exact List.mem_singleton.2 rfl⟩
  have hnone := List.filterMap_eq_nil_iff.1 h _ hmem
  simp [Event.fault?] at hnone

/-- The body of a table that is read without faults, with the types that the columns have, reads
all types back. -/
theorem typesReread_of_body {t : Table} (h : ∀ c ∈ t.columns, ColumnLine c) (s : List Char)
    (hf : ∀ l ∈ (many line? line?_progresses (tableBody t ++ '}' :: s)).1, ∀ f, l ≠ .fault f)
    (ht : ((many line? line?_progresses (tableBody t ++ '}' :: s)).1.filterMap
      Line.column?).map (·.type) = t.types) : ∀ c ∈ t.columns, c.TypeRereads := by
  have hnone : ((nonEmpty t.note).toList.map Line.note).filterMap Line.column? = [] := by
    cases nonEmpty t.note <;> rfl
  rw [(many_line?_body t _).1] at hf ht
  rw [List.filterMap_append, hnone, List.nil_append] at ht
  exact typesReread_of_lines h s (fun l hl => hf l (List.mem_append_right _ hl)) ht

theorem item?_table_eq (t : Table) (s : List Char) :
    item? ((table t).toList ++ s) =
      some ((readItem ((table t).toList ++ s)).1, (readItem ((table t).toList ++ s)).2) := by
  rw [toList_table_append]
  exact item?_of_skipFiller (skipFiller_of_stopsAt (stopsAt_cons.2 (by decide)))

/-- Where the text of a table is read without faults, a table is read that is closed. If it has the
types that the columns have, the table is read back. -/
theorem rereadable_of_readItem {t : Table} (h : TableLines t) {s : List Char}
    (hf : (readItem ((table t).toList ++ s)).1.events.filterMap Event.fault? = []) :
    ∃ d, (readItem ((table t).toList ++ s)).1.closed? = some d ∧
      (d.types = t.types → t.Rereadable) := by
  have hkey : keyword? "Table" ('T' :: 'a' :: 'b' :: 'l' :: 'e' :: ' ' ::
      ((identifier t.name).toList ++ aliasText t.aliasName (tableBody t ++ '}' :: s))) =
      some (' ' :: ((identifier t.name).toList ++
        aliasText t.aliasName (tableBody t ++ '}' :: s))) := rfl
  rw [toList_table_append] at hf ⊢
  simp only [readItem, hkey, readTable, readHeader_tableHeader h.name h.aliasName, Prod.map_fst,
    readBody] at hf ⊢
  split at hf
  · refine ⟨_, rfl, fun ht => h.rereadable (typesReread_of_body h.columns s ?_ ht)⟩
    exact no_fault_of_events hf
  · have hlast := (List.append_eq_nil_iff.1 (List.filterMap_append.symm.trans hf)).2
    simp [Event.fault?] at hlast

/-! ## Documents -/

/-- If a table's text and what follows it are read without faults, the first table that is read
having the types of the table's columns, the table is read back and reading goes on behind it. -/
theorem rereadable_of_read_append {t : Table} (h : TableLines t) {s : List Char}
    {types : List (List String)} (hf : (Outline.read ((table t).toList ++ s)).faults = [])
    (ht : ((Outline.read ((table t).toList ++ s)).filterMap Item.closed?).map TableDraft.types =
      t.types :: types) :
    t.Rereadable ∧ (Outline.read s).faults = [] ∧
      ((Outline.read s).filterMap Item.closed?).map TableDraft.types = types := by
  rw [read_of_item? (item?_table_eq t s)] at hf ht
  rw [faults_eq, List.flatMap_cons] at hf
  obtain ⟨hfirst, hrest⟩ := List.append_eq_nil_iff.1 hf
  obtain ⟨d, hd, hback⟩ := rereadable_of_readItem h hfirst
  rw [List.filterMap_cons_some hd] at ht
  have hback := hback (List.cons.inj ht).1
  obtain ⟨e, he, -⟩ := item?_table hback s
  have hs := congrArg Prod.snd (Option.some.inj ((item?_table_eq t s).symm.trans he))
  rw [hs, ← faults_eq] at hrest
  rw [hs] at ht
  exact ⟨hback, hrest, (List.cons.inj ht).2⟩

/-- If the text of tables is read without faults, and the tables that are read have the types that
the columns have, all tables are read back. The induction is on the tables: the text behind one is
read as it is written only because that one is read back. -/
theorem rereadable_of_read {ts : List Table} {t : Table} (h : ∀ k ∈ ts ++ [t], TableLines k)
    (hf : (Outline.read (blockLines (ts.map .table) ++ (table t).toList)).faults = [])
    (ht : ((Outline.read (blockLines (ts.map .table) ++ (table t).toList)).filterMap
      Item.closed?).map TableDraft.types = (ts ++ [t]).map Table.types) :
    ∀ k ∈ ts ++ [t], k.Rereadable := by
  induction ts with
  | nil =>
    rw [List.map_nil, blockLines, List.flatMap_nil, List.nil_append,
      ← List.append_nil (table t).toList] at hf ht
    have hback := (rereadable_of_read_append (h t (by simp)) hf ht).1
    intro k hk
    rw [List.nil_append, List.mem_singleton] at hk
    exact hk ▸ hback
  | cons k ts ih =>
    have hsplit : blockLines ((k :: ts).map .table) ++ (table t).toList = (table k).toList ++
        '\n' :: ((Block.table k).gap.flatMap (fun l => l.toList ++ ['\n']) ++
          (blockLines (ts.map .table) ++ (table t).toList)) := by
      rw [List.map_cons, blockLines_cons, Block.text]; simp
    rw [hsplit] at hf ht
    obtain ⟨hk, hfs, hts⟩ := rereadable_of_read_append (h k List.mem_cons_self) hf ht
    rw [read_gap] at hfs hts
    have hback := ih (fun m hm => h m (List.mem_cons_of_mem _ hm)) hfs hts
    intro m hm
    rcases List.mem_cons.1 hm with rfl | hm
    · exact hk
    · exact hback m hm

end Canonical

end Dbml
