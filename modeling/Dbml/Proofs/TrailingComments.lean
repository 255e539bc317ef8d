import Dbml.Proofs.Layout
import Dbml.Proofs.Reached

/-!
# Comments behind a line

A comment may stand behind a column and behind the header of a block that is not kept. The routines
that see it there are not the one that skips filler. Behind a type the rest of the line is dropped,
and a comment is told from it. Where a type is looked for, and where the opening brace of a block is
looked for, a comment is text like any other.

So a comment behind a column with its type does not matter, and behind a header it does not as long
as nothing of it is taken for the brace or keeps a quote open past the line. Behind a name alone the
comment is taken for the type that is missing.

Results:
* `ColumnText.line?`: a column is read the same from its line with a comment and without;
* `line?_name_newline`, `line?_name_comment`: a name without a type, and the type it gets from a
  comment;
* `BlockHeader.Plain.item?_comment`: a block is passed over the same with a comment behind its
  header;
* `BlockHeader.Plain.item?_brace`: a brace in the comment opens the block;
* `parse_trailingComment`: what that means for documents.
-/
namespace Dbml

open Text Outline Canonical

/-- A line with a comment behind it and more lines. -/
abbrev behindComment (c rest : List Char) : List Char := ' ' :: '/' :: '/' :: (c ++ '\n' :: rest)

section Behind

variable (c rest : List Char)

theorem gapFront_comment : GapFront (behindComment c rest) := stopsAt_cons.2 rfl

theorem opens_nothing_newline :
    StopsAt (fun k => k == '{' || k == ':') (skipInline ('\n' :: rest)) := stopsAt_cons.2 rfl

theorem opens_nothing_comment :
    StopsAt (fun k => k == '{' || k == ':') (skipInline (behindComment c rest)) :=
  stopsAt_cons.2 rfl

end Behind

/-! ## Columns with a type -/

/-- The text of a column up to where the rest of its line may stand. -/
inductive ColumnText (c : Column) : List Char → Prop
  | text {gap brackets : List Char} (hne : gap ≠ []) (hg : Blanks gap)
    (hb : BracketsLayout (columnSettings c) brackets) :
    ColumnText c ((identifier c.name).toList ++ (gap ++ (c.type.toList ++ brackets)))

namespace ColumnText

variable {c : Column} {w : List Char}

theorem layout (h : ColumnText c w) {rest : List Char} (hr : LineRest rest) :
    ColumnLayout c (w ++ (rest ++ ['\n'])) := by
  obtain @⟨gap, brackets, hne, hg, hb⟩ := h
  have hline := ColumnLayout.line hne hg hb hr
  simpa only [List.append_assoc] using hline

/-- A column is read from its line, whatever the rest of the line is. Only places depend on that. -/
theorem line? (h : ColumnText c w) (hc : c.EmitSafe) {rest : List Char} (hr : LineRest rest)
    (s : List Char) :
    ∃ l, Outline.line? (w ++ (rest ++ '\n' :: s)) = some (l, s) ∧
      l.moved (fun _ => []) = .column ⟨c.name, c.type, [], columnSettings c⟩ := by
  obtain ⟨d, hd, hname, htype, hsettings⟩ := (h.layout hr).line? hc .nil s
  refine ⟨.column d, ?_, ?_⟩
  · simpa using hd
  · rw [Line.moved, ColumnDraft.moved, hname, htype, hsettings]

theorem head (h : ColumnText c w) (hc : c.EmitSafe) :
    ∃ k r, w = k :: r ∧ (isWordStart k = true ∨ k = '\x60') := by
  obtain ⟨hne, hg, hb⟩ := h
  obtain ⟨k, r, hk, hstart⟩ := identifier_head hc.name.no_newline
  exact ⟨k, _, by rw [hk]; rfl, hstart⟩

end ColumnText

section Words

variable {w : List Char} (hw : isWord w = true)
include hw

theorem isWord_head : ∃ c r, w = c :: r ∧ isWordStart c = true := by
  cases w with
  | nil => cases hw
  | cons c w =>
    rw [isWord, Bool.and_eq_true] at hw
    exact ⟨c, w, rfl, hw.1⟩

theorem plainType_of_isWord : PlainType w := by
  have hall : ∀ c ∈ w, isTypeChar c = true := by
    intro c hc
    by_contra hno
    have hword := isWordChar_of_isWord hw c hc
    simp only [isTypeChar, isInlineSpace, Bool.not_eq_true, Bool.not_eq_false', Bool.or_eq_true,
      beq_iff_eq] at hno
    rcases hno with (((((rfl | rfl) | rfl) | rfl) | rfl) | rfl) | rfl <;> cases hword
  obtain ⟨c, r, rfl, hc⟩ := isWord_head hw
  refine ⟨⟨?_, ?_⟩, .inl (List.dropWhile_eq_nil_iff.2 hall)⟩
  · rw [List.head?_cons]
    rintro ⟨⟩
    cases hc
  · rw [List.takeWhile_cons_of_pos (hall c List.mem_cons_self)]
    exact List.cons_ne_nil _ _

end Words

/-- A column of a name and a type, without settings. -/
def wordColumn (name type : List Char) : Column where
  id := ""
  name := String.ofList name
  type := String.ofList type

/-- Two bare words are the text of such a column. -/
theorem columnText_words {name type gap : List Char} (hn : isWord name = true)
    (ht : isWord type = true) (hne : gap ≠ []) (hg : Blanks gap) :
    ColumnText (wordColumn name type) (name ++ (gap ++ type)) ∧
      (wordColumn name type).EmitSafe := by
  have hname : (wordColumn name type).name.toList = name := String.toList_ofList
  have htype : (wordColumn name type).type.toList = type := String.toList_ofList
  have hplain : PlainName (wordColumn name type).name := plainName_of_isWord hn
  have hidentifier : (identifier (wordColumn name type).name).toList = name := by
    rw [toList_identifier_of_isWord (by rwa [hname]) hplain.no_newline, hname]
  have htext := @ColumnText.text (wordColumn name type) gap [] hne hg .none
  rw [hidentifier, htype, List.append_nil] at htext
  refine ⟨htext, hplain, ?_, ?_⟩
  · rw [htype]
    exact plainType_of_isWord ht
  · obtain ⟨c, r, rfl, hc⟩ := isWord_head ht
    have hskip := skipInline_word ht []
    rw [List.append_nil] at hskip
    rw [Column.LooksSpecial, htype, hskip, List.head?_cons]
    rintro (⟨-, h | h⟩ | ⟨-, h⟩) <;> (obtain rfl := Option.some.inj h; cases hc)

/-! ## A name alone -/

/-- A comment that keeps to its line where it is taken for a type: it opens neither a parameter nor
settings, and it closes no block and starts no comment over several lines. -/
def Tame (c : List Char) : Prop :=
  ∀ k ∈ c, k ≠ '\n' ∧ k ≠ '(' ∧ k ≠ '[' ∧ k ≠ '}' ∧ k ≠ '*'

instance (c : List Char) : Decidable (Tame c) := List.decidableBAll _ c

/-- A text that goes on to the end of its line as a tame comment does. -/
inductive TameLine (s : List Char) : List Char → Prop
  | line {u : List Char} (hu : Tame u) : TameLine s (u ++ '\n' :: s)

namespace TameLine

variable {s t : List Char}

theorem dropWhile (h : TameLine s t) {p : Char → Bool} (hp : p '\n' = false) :
    TameLine s (t.dropWhile p) := by
  obtain @⟨u, hu⟩ := h
  rw [dropWhile_append_newline hp]
  exact .line fun k hk => hu k ((List.dropWhile_suffix p).mem hk)

theorem head (h : TameLine s t) : ∀ k ∈ t.head?, k ≠ '(' ∧ k ≠ '[' ∧ k ≠ '*' := by
  intro k hk
  obtain @⟨u, hu⟩ := h
  cases u with
  | nil =>
    obtain rfl := Option.some.inj hk
    decide
  | cons c u =>
    obtain rfl := Option.some.inj hk
    obtain ⟨-, ho, hb, -, hs⟩ := hu _ List.mem_cons_self
    exact ⟨ho, hb, hs⟩

theorem dropLine (h : TameLine s t) : Text.dropLine t = s := by
  obtain @⟨u, hu⟩ := h
  induction u with
  | nil => exact dropLine_newline s
  | cons c u ih =>
    have hn : '\n' ∉ c :: u := fun hmem => (hu _ hmem).1 rfl
    have hline := skipLine_append_newline hn s
    obtain ⟨hc, hu⟩ := List.forall_mem_cons.1 hu
    have hpiece := linePiece?_cons (r := u ++ '\n' :: s) hc.1 hc.2.2.2.1
      fun _ hhead => ((line hu).head '*' hhead).2.2 rfl
    rw [List.cons_append] at hline ⊢
    split at hpiece
    · rw [Text.dropLine, skipMany_of_none hpiece]
      split
      · rename_i he; exact absurd (List.cons.inj he).1 hc.2.2.2.1
      · exact hline
    · rw [Text.dropLine, skipMany_of_some hpiece]
      exact ih hu

/-- A tame comment is taken for a type, up to its first blank. -/
theorem readType (h : TameLine s t) :
    Outline.readType ('/' :: '/' :: t) =
      ('/' :: '/' :: t.takeWhile isTypeChar, skipInline (t.dropWhile isTypeChar)) := by
  have hhead := ((h.dropWhile (p := isTypeChar) rfl).dropWhile (p := isInlineSpace) rfl).head
  rw [readType_of_no_quote (by simp), readBareType, List.takeWhile_cons_of_pos (by decide),
    List.takeWhile_cons_of_pos (by decide), List.dropWhile_cons_of_pos (by decide),
    List.dropWhile_cons_of_pos (by decide)]
  dsimp only [List.isEmpty_cons]
  rw [if_neg (by simp)]
  split
  · rename_i r he
    rw [← skipInline, he] at hhead
    exact absurd rfl (hhead '(' rfl).1
  · rfl

theorem readOptionalSettings (h : TameLine s t) : Outline.readOptionalSettings t = ([], t) := by
  have hhead := h.head
  unfold Outline.readOptionalSettings
  split
  · exact absurd rfl (hhead '[' rfl).2.1
  · rfl

end TameLine

section NameAlone

variable {name : List Char} (hw : isWord name = true)
include hw

/-- A bare word is taken for the name of a column, if what follows it opens no block and no note. -/
theorem line?_name {x : List Char} (hx : StopsAt isWordChar x)
    (hopen : StopsAt (fun k => k == '{' || k == ':') (skipInline x)) :
    line? (name ++ x) = some ((nameColumn name x).map id dropLine) := by
  have hskip := skipFiller_word hw x
  have hread := readWord_append hw hx
  have hident := readIdentifier_word hw hx
  have hword : ∀ word, wordLine? word (name ++ x) (skipInline x) = none := by
    intro word
    unfold wordLine?
    generalize skipInline x = r at hopen
    split
    · split
      · exact absurd (stopsAt_cons.1 hopen) (by decide)
      · exact absurd (stopsAt_cons.1 hopen) (by decide)
      · rfl
    · rfl
  obtain ⟨c, r, rfl, hc⟩ := isWord_head hw
  have hhead : c ≠ '}' ∧ c ≠ '/' := by
    constructor <;> (rintro rfl; cases hc)
  rw [List.cons_append] at hskip hread hident hword ⊢
  have hscan := scanColumn_eq (c :: (r ++ x))
  rw [hident] at hscan
  rw [line?_of_skipFiller hskip hhead.1, readLine_of_ne_slash hhead.2, hread, hword,
    Option.getD_none, columnLine_eq, ← hscan]
  rfl

/-- Without a comment its type is missing. -/
theorem line?_name_newline (s : List Char) :
    line? (name ++ '\n' :: s) =
      some (.fault ⟨.noColumnType (String.ofList name), '\n' :: s⟩, s) := by
  have hne : name ≠ [] := by rintro rfl; cases hw
  have htype : readType (skipInline ('\n' :: s)) = ([], '\n' :: s) := rfl
  have hdrop := dropLine_newline s
  rw [line?_name hw (stopsAt_cons.2 rfl) (opens_nothing_newline s), nameColumn,
    if_neg (by simpa using hne), htype]
  simp only [typeColumn, List.isEmpty_nil, if_true, Prod.map, id, hdrop]

/-- With a tame comment behind it the name has a type. -/
theorem line?_name_comment {c : List Char} (hc : Tame c) (s : List Char) :
    ∃ d : ColumnDraft, line? (name ++ behindComment c s) = some (.column d, s) ∧
      d.name = String.ofList name ∧
      d.type = String.ofList ('/' :: '/' :: c.takeWhile isTypeChar) := by
  have hne : name ≠ [] := by rintro rfl; cases hw
  have htake : (c ++ '\n' :: s).takeWhile isTypeChar = c.takeWhile isTypeChar :=
    (span_append_of_stopsAt (stopsAt_cons.2 rfl) c).1
  have hline : TameLine s (c ++ '\n' :: s) := .line hc
  have hrest := (hline.dropWhile (p := isTypeChar) rfl).dropWhile (p := isInlineSpace) rfl
  have htype : Outline.readType (skipInline (behindComment c s)) = _ := hline.readType
  rw [line?_name hw (stopsAt_cons.2 rfl) (opens_nothing_comment c s), nameColumn,
    if_neg (by simpa using hne), htype]
  simp only [typeColumn, List.isEmpty_cons, Bool.false_eq_true, if_false, typedColumn]
  rw [skipInline_skipInline, skipInline, hrest.readOptionalSettings]
  exact ⟨_, congrArg (fun r => some (_, r)) hrest.dropLine, rfl, by rw [htake]⟩

end NameAlone

/-! ## Headers -/

namespace Text

/-- A mark on one line does not reach over its end. -/
theorem isPrefixOf_append_newline {mark : List Char} (h : '\n' ∉ mark) (w s : List Char) :
    mark.isPrefixOf (w ++ '\n' :: s) = mark.isPrefixOf w := by
  induction mark generalizing w with
  | nil => rfl
  | cons c mark ih =>
    simp only [List.mem_cons, not_or] at h
    cases w with
    | nil => simp [List.isPrefixOf, Ne.symm h.1]
    | cons d w => simp only [List.cons_append, List.isPrefixOf, ih h.2]

theorem closesLater_of_no_quote {s : List Char} (h : '\'' ∉ s) : closesLater s = false := by
  fun_induction closesLater s with
  | case1 => rfl
  | case2 => rfl
  | case3 c r ih => exact ih (by simp_all)
  | case4 r => simp at h
  | case5 c r _ _ _ ih => exact ih (by simp_all)

/-- A run of three single quotes that opens on a line closes on it, or takes all that is left. -/
theorem breakAt_line {mark : List Char} (h : '\n' ∉ mark) (hne : mark ≠ []) (w : List Char) :
    (∃ u, u <:+ w ∧ ∀ s, (breakAt mark (w ++ '\n' :: s)).2 = u ++ '\n' :: s) ∨
      ∀ s, (breakAt mark (w ++ '\n' :: s)).2 = (breakAt mark s).2 := by
  induction w with
  | nil =>
    right
    intro s
    have hno : mark.isPrefixOf ('\n' :: s) = false := by
      have hp := isPrefixOf_append_newline h [] s
      rw [List.nil_append] at hp
      rw [hp]
      cases mark with
      | nil => exact absurd rfl hne
      | cons c mark => rfl
    simp only [List.nil_append, breakAt, hno, Bool.false_eq_true, if_false, Prod.map, id]
  | cons c w ih =>
    have hp := isPrefixOf_append_newline h (c :: w)
    cases hmark : mark.isPrefixOf (c :: w) with
    | true =>
      left
      obtain ⟨u, hu⟩ := List.isPrefixOf_iff_prefix.1 hmark
      refine ⟨u, ⟨mark, hu⟩, fun s => ?_⟩
      have hs := hp s
      rw [hmark] at hs
      rw [List.cons_append] at hs ⊢
      rw [breakAt, if_pos hs, ← List.cons_append, ← hu, List.append_assoc, List.drop_left]
    | false =>
      have hnext : ∀ s, (breakAt mark (c :: w ++ '\n' :: s)).2 =
          (breakAt mark (w ++ '\n' :: s)).2 := by
        intro s
        have hs := hp s
        rw [hmark, List.cons_append] at hs
        rw [List.cons_append, breakAt, if_neg (by simp [hs])]
        rfl
      rcases ih with ⟨u, hu, hbreak⟩ | hall
      · exact .inl ⟨u, hu.trans (List.suffix_cons c w), fun s => (hnext s).trans (hbreak s)⟩
      · exact .inr fun s => (hnext s).trans (hall s)

/-- What is left of a token behind the characters up to where it stops. If no single quote stands
further down, it stops on its line. -/
theorem quotedChars_line {q : Char} (hq : q ≠ '\n') (w : List Char) (hw : '\n' ∉ w) :
    ∃ u, u <:+ w ∧ ∀ s, '\'' ∉ s → (quotedChars q (w ++ '\n' :: s)).2 = u ++ '\n' :: s := by
  induction hn : w.length using Nat.strongRecOn generalizing w with
  | _ n ih =>
    rcases w with _ | ⟨c, w⟩
    · refine ⟨[], List.suffix_rfl, fun s hs => ?_⟩
      have hstop : quotedChar? q ('\n' :: s) = none := by
        simp [quotedChar?, closesLater_of_no_quote hs]
      rw [List.nil_append, quotedChars_of_none hstop]
    have hstep : ∀ a r, (∀ s, quotedChar? q (c :: (w ++ '\n' :: s)) = some (a, r ++ '\n' :: s)) →
        r <:+ w → ∃ u, u <:+ c :: w ∧
          ∀ s, '\'' ∉ s → (quotedChars q (c :: w ++ '\n' :: s)).2 = u ++ '\n' :: s := by
      intro a r hsome hr
      have hlt : r.length < n := by
        have := hr.length_le
        simp only [List.length_cons] at hn
        omega
      obtain ⟨u, hu, hrest⟩ := ih r.length hlt r
        (fun hmem => hw (List.mem_cons_of_mem c (hr.mem hmem))) rfl
      refine ⟨u, hu.trans (hr.trans (List.suffix_cons c w)), fun s hs => ?_⟩
      rw [List.cons_append, quotedChars_of_some (hsome s)]
      exact hrest s hs
    have hnewline : (c == '\n') = false :=
      beq_false_of_ne fun he => hw (he ▸ List.mem_cons_self)
    by_cases hc : c = q
    · subst hc
      exact ⟨c :: w, List.suffix_rfl, fun s _ => by rw [List.cons_append, quotedChars_quote]⟩
    · have hcq : (c == q) = false := beq_false_of_ne hc
      by_cases hb : c = '\\' ∧ q ≠ '\x60'
      · obtain ⟨rfl, hq'⟩ := hb
        rcases w with _ | ⟨d, w⟩
        · exact hstep '\\' [] (fun s => by simp [quotedChar?, hcq, hq']) List.suffix_rfl
        · have hd : (d == '\n') = false := beq_false_of_ne fun he =>
            hw (List.mem_cons_of_mem _ (he ▸ List.mem_cons_self))
          exact hstep d w (fun s => by simp [quotedChar?, hcq, hq', hd]) (List.suffix_cons d w)
      · have hplain : (c == '\\' && q != '\x60') = false := by
          simpa [Bool.and_eq_false_iff] using hb
        exact hstep c w (fun s => by simp [quotedChar?, hcq, hnewline, hplain]) List.suffix_rfl

theorem breakAt_of_not_mem {c : Char} {mark s : List Char} (h : c ∉ s) :
    (breakAt (c :: mark) s).2 = [] := by
  induction s with
  | nil => rfl
  | cons d s ih =>
    simp only [List.mem_cons, not_or] at h
    have hno : (c :: mark).isPrefixOf (d :: s) = false := by simp [List.isPrefixOf, h.1]
    rw [breakAt, if_neg (by simp [hno])]
    exact ih h.2

/-- Where no single quote stands further down, a quoted token stops on its line, or it takes all
that is left. -/
theorem readQuoted_line {q : Char} (hq : q ≠ '\n') {w : List Char} (hw : '\n' ∉ w) :
    (∃ u, u <:+ w ∧ ∀ s, '\'' ∉ s → (readQuoted (q :: (w ++ '\n' :: s))).2 = u ++ '\n' :: s) ∨
      ∀ s, '\'' ∉ s → (readQuoted (q :: (w ++ '\n' :: s))).2 = [] := by
  by_cases htriple : ['\'', '\'', '\''] <+: q :: w
  · obtain ⟨t, ht⟩ := htriple
    obtain ⟨rfl, rfl⟩ := List.cons.inj ht
    rcases @breakAt_line ['\'', '\'', '\''] (by decide) (by decide) t with
      ⟨u, hu, hbreak⟩ | hall
    · exact .inl ⟨u, hu.trans (List.suffix_append _ t), fun s _ => hbreak s⟩
    · exact .inr fun s hs => (hall s).trans (breakAt_of_not_mem hs)
  · left
    obtain ⟨u, hu, hchars⟩ := quotedChars_line hq w hw
    have hread : ∀ s, readQuoted (q :: (w ++ '\n' :: s)) =
        (quotedChars q (w ++ '\n' :: s)).map id (dropChar q) := by
      intro s
      by_cases hsingle : q = '\''
      · subst hsingle
        refine readQuoted_of_not_triple fun hp => htriple ?_
        have hline := @isPrefixOf_append_newline ['\'', '\'', '\''] (by decide)
          ('\'' :: w) s
        rw [← List.isPrefixOf_iff_prefix, ← hline]
        exact List.isPrefixOf_iff_prefix.2 hp
      · exact readQuoted_of_ne hsingle _
    refine ⟨dropChar q u, (dropChar_suffix q u).trans hu, fun s hs => ?_⟩
    rw [hread, Prod.map_snd, hchars s hs]
    cases u with
    | nil => simp [dropChar, Ne.symm hq]
    | cons c u =>
      rw [List.cons_append, dropChar, dropChar]
      split <;> rfl

end Text

/-- The search for an opening brace passes over a comment: no brace stands in it but in quotes, and
the quotes that open in it end on its line. -/
def PassedOver (c : List Char) : Prop :=
  skipMany headerPiece? headerPiece?_skips (c ++ ['\n']) = ['\n']

instance (c : List Char) : Decidable (PassedOver c) := inferInstanceAs (Decidable (_ = _))

theorem PassedOver.skipHeader {c : List Char} (hc : PassedOver c) (hn : '\n' ∉ c) {s : List Char}
    (hs : '\'' ∉ s) :
    skipMany headerPiece? headerPiece?_skips (c ++ '\n' :: s) = '\n' :: s := by
  have hstop : ∀ s, headerPiece? ('\n' :: s) = none := fun _ => rfl
  induction hlen : c.length using Nat.strongRecOn generalizing c with
  | _ n ih =>
    rcases c with _ | ⟨k, c⟩
    · exact skipMany_of_none (hstop s)
    simp only [List.mem_cons, not_or] at hn
    rw [PassedOver, List.cons_append] at hc
    rw [List.cons_append]
    by_cases hbrace : k = '{'
    · subst hbrace
      rw [skipMany_of_none rfl] at hc
      exact absurd (List.cons.inj hc).1 (by decide)
    have hends : (k == '{' || k == '\n') = false := by simp [hbrace, Ne.symm hn.1]
    by_cases hquote : isQuote k = true
    · have hpiece : ∀ r, headerPiece? (k :: r) = some (readQuoted (k :: r)).2 := by
        intro r
        simp [headerPiece?, hends, hquote]
      rw [skipMany_of_some (hpiece _)] at hc ⊢
      rcases readQuoted_line (Ne.symm hn.1) hn.2 with ⟨u, hu, hline⟩ | hall
      · rw [hline [] (by simp)] at hc
        rw [hline s hs]
        have hlt := hu.length_le
        exact ih u.length (by simp only [List.length_cons] at hlen; omega) hc
          (fun hmem => hn.2 (hu.mem hmem)) rfl
      · rw [hall [] (by simp)] at hc
        exact absurd hc (by rw [List.suffix_nil.1 (skipMany_suffix [])]; decide)
    · have hpiece : ∀ r, headerPiece? (k :: r) = some r := by
        intro r
        simp [headerPiece?, hends, hquote]
      rw [skipMany_of_some (hpiece _)] at hc ⊢
      exact ih c.length (by simp only [List.length_cons] at hlen; omega) hc hn.2 rfl

theorem skipHeader_slashes (s : List Char) :
    skipMany headerPiece? headerPiece?_skips (' ' :: '/' :: '/' :: s) =
      skipMany headerPiece? headerPiece?_skips s :=
  @skipHeader_append [' ', '/', '/'] (by simp [isQuote]) s

/-- A comment without braces and quotes is passed over. -/
theorem passedOver_of_forall {c : List Char}
    (hc : ∀ k ∈ c, k ≠ '\n' ∧ k ≠ '{' ∧ isQuote k = false) : PassedOver c :=
  (skipHeader_append hc ['\n']).trans (skipMany_of_none rfl)

namespace BlockHeader

variable {h : BlockHeader}

theorem Plain.item?_of_header (hh : h.Plain) {x : List Char} (hx : GapFront x) :
    item? (h.text ++ x) = some (.skipped (h.text ++ x), skipBlock (h.text ++ x)) := by
  have hends : wordEnds (h.label ++ x) = true := by
    rw [wordEnds_append_gap hx]
    exact hh.ends
  obtain ⟨c, r, hc, -⟩ := hh.head x
  rw [item?_of_skipFiller ((hh.skipFiller x).trans hc), ← hc, hh.readItem hends]

/-- A block is passed over the same with a comment behind its header. -/
theorem Plain.item?_comment (hh : h.Plain) {c s : List Char} (hc : PassedOver c) (hn : '\n' ∉ c)
    (hs : '\'' ∉ s) :
    ∃ q, item? (h.text ++ '\n' :: s) = some (.skipped (h.text ++ '\n' :: s), q) ∧
      item? (h.text ++ behindComment c s) = some (.skipped (h.text ++ behindComment c s), q) := by
  have hplain : skipMany headerPiece? headerPiece?_skips ('\n' :: s) = '\n' :: s :=
    skipMany_of_none rfl
  have hcomment : skipMany headerPiece? headerPiece?_skips (behindComment c s) = '\n' :: s :=
    (skipHeader_slashes _).trans (hc.skipHeader hn hs)
  have hblock : skipBlock (h.text ++ behindComment c s) = skipBlock (h.text ++ '\n' :: s) := by
    rw [skipBlock, skipBlock, hh.skipHeader, hh.skipHeader, hplain, hcomment]
  exact ⟨_, hh.item?_of_header (gapFront_newline s),
    hblock ▸ hh.item?_of_header (gapFront_comment c s)⟩

/-- A brace in the comment opens the block there, and the braces behind it are looked for inside. -/
theorem Plain.item?_brace (hh : h.Plain) {a : List Char}
    (ha : ∀ k ∈ a, k ≠ '\n' ∧ k ≠ '{' ∧ isQuote k = false) (b s : List Char) :
    item? (h.text ++ behindComment (a ++ '{' :: b) s) =
      some (.skipped (h.text ++ behindComment (a ++ '{' :: b) s), skipBody 0 (b ++ '\n' :: s)) := by
  have hopen : skipMany headerPiece? headerPiece?_skips ('{' :: (b ++ '\n' :: s)) =
      '{' :: (b ++ '\n' :: s) := skipMany_of_none rfl
  have hblock : skipBlock (h.text ++ behindComment (a ++ '{' :: b) s) =
      skipBody 0 (b ++ '\n' :: s) := by
    rw [skipBlock, hh.skipHeader, skipHeader_slashes, List.append_assoc, skipHeader_append ha,
      List.cons_append, hopen]
    rfl
  rw [hh.item?_of_header (gapFront_comment _ s), hblock]

end BlockHeader

/-! ## Documents -/

theorem Text.not_isBlank_of_isWordStart {c : Char} (h : isWordStart c = true) :
    isBlank c = false := by
  simp only [isWordStart, Char.isAlpha, Char.isUpper, Char.isLower, Bool.or_eq_true,
    Bool.and_eq_true, decide_eq_true_eq, beq_iff_eq, ge_iff_le, UInt32.le_iff_toNat_le] at h
  rcases h with h | rfl
  · have hletter : (65 ≤ c.toNat ∧ c.toNat ≤ 90) ∨ (97 ≤ c.toNat ∧ c.toNat ≤ 122) := h
    simp only [isBlank, isWhiteSpace, inRanges, whiteSpaceRanges, List.any_cons, List.any_nil,
      Bool.or_false, Bool.or_eq_false_iff, Bool.and_eq_false_iff, decide_eq_false_iff_not]
    omega
  · decide

/-- A text with a line that starts with a word or a backtick is not blank. -/
theorem not_blank_of_line {k : Char} {line r : List Char} (hline : line = k :: r)
    (hk : isWordStart k = true ∨ k = '\x60') (before after : List Char) :
    (before ++ (line ++ after)).all isBlank = false := by
  refine List.all_eq_false.2 ⟨k, by simp [hline], ?_⟩
  rcases hk with hk | rfl
  · simp [not_isBlank_of_isWordStart hk]
  · decide

namespace Outline

theorem causes_append (o p : Outline) : causes (o ++ p) = o.causes ++ p.causes := by
  rw [causes, faults_append, List.map_append]
  rfl

theorem causes_cons (i : Item) (o : Outline) : causes (i :: o) = causes [i] ++ o.causes :=
  causes_append [i] o

/-- What is wrong with a table is wrong with one of its lines, or with what stands around it. -/
theorem causes_tableWith (header : TableHeader) (body : List Char) (lines : List Line)
    (rest : List Line × Option Fault) :
    ∃ before after, ∀ l : Line, causes [tableWith header body lines l rest] =
      before ++ ((l.events.filterMap Event.fault?).map Fault.cause ++ after) := by
  refine ⟨((lines.flatMap Line.events).filterMap Event.fault?).map Fault.cause,
    ((rest.1.flatMap Line.events).filterMap Event.fault?).map Fault.cause ++
      rest.2.toList.map Fault.cause, fun l => ?_⟩
  obtain ⟨more, fault⟩ := rest
  cases fault <;> simp [causes, faults_eq, tableWith, tableItem, Item.events, TableItem.events,
    TableDraft.events, List.filterMap_cons, Event.fault?]

end Outline

/-- What a source that never refuses lets be reported of a text. -/
theorem messages_parse {σ : Type} {source : IdSource σ} (hs : source.Total) (st : σ)
    {s : List Char} (hb : s.all isBlank = false) :
    (parse source st (String.ofList s)).messages = (Outline.read s).causes.map Cause.message := by
  rw [parse_of_total hs st (by rwa [String.toList_ofList]), Parsed.messages, String.toList_ofList,
    causes, List.map_map, List.map_map]
  rfl

section Documents

variable {before line c rest : List Char} (hb : '\'' ∉ before) (hl : '\'' ∉ line)
include hb hl

/-- What is read of a table differs in a line with a comment only, if the comment keeps to the
line. -/
theorem ReachesLine.read_comment {items : Outline} {header : TableHeader} {body : List Char}
    {lines : List Line}
    (h : ReachesLine (before ++ (line ++ '\n' :: rest)) items header body lines
      (line ++ '\n' :: rest)) (hne : line ≠ []) {l l' : Line}
    (hplain : line? (line ++ '\n' :: rest) = some (l, rest))
    (hcomment : line? (line ++ behindComment c rest) = some (l', rest)) :
    ∃ (o p : Outline) (b : List Char) (ls : List Line) (more : List Line × Option Fault),
      (Outline.read (before ++ (line ++ '\n' :: rest))).unplaced =
          unplaced (o ++ tableWith header b ls l more :: p) ∧
        (Outline.read (before ++ (line ++ behindComment c rest))).unplaced =
          unplaced (o ++ tableWith header b ls l' more :: p) := by
  have hq : '\'' ∉ before ++ line := by simp [hb, hl]
  simp only [← List.append_assoc] at h ⊢
  obtain ⟨o, b, ls, hreach, -, -, -⟩ := (reachesLine_append_iff (gapFront_newline rest)
    (opens_nothing_newline rest) hq hne).1 h
  exact ⟨o, Outline.read (readLines rest).2, b, ls, (readLines rest).1,
    hreach.read_append (gapFront_newline rest) (opens_nothing_newline rest) hq hne hplain,
    hreach.read_append (gapFront_comment c rest) (opens_nothing_comment c rest) hq hne hcomment⟩

/-- What is read of a document differs in the place of a skipped block only, if the comment behind
its header is passed over. -/
theorem ReachesStatement.read_comment {items : Outline}
    (h : ReachesStatement (before ++ (line ++ '\n' :: rest)) items (line ++ '\n' :: rest))
    (hne : line ≠ []) {s s' q : List Char}
    (hplain : item? (line ++ '\n' :: rest) = some (.skipped s, q))
    (hcomment : item? (line ++ behindComment c rest) = some (.skipped s', q)) :
    (Outline.read (before ++ (line ++ behindComment c rest))).unplaced =
      (Outline.read (before ++ (line ++ '\n' :: rest))).unplaced := by
  have hq : '\'' ∉ before ++ line := by simp [hb, hl]
  simp only [← List.append_assoc] at h ⊢
  obtain ⟨o, hreach, -⟩ := (reachesStatement_append_iff (gapFront_newline rest)
    (opens_nothing_newline rest) hq hne).1 h
  rw [hreach.read_append (gapFront_newline rest) (opens_nothing_newline rest) hq hne hplain,
    hreach.read_append (gapFront_comment c rest) (opens_nothing_comment c rest) hq hne hcomment]
  rw [unplaced_append, unplaced_append]
  rfl

end Documents

/-- A comment behind a line, where the text in front of the comment and the lines behind it hold no
single quote.

If the line is a column with its type, the comment does not matter: the same schema and the same
messages come of the text with it as without, and the source of ids is left in the same state. So it
is if the line is the header of a block that is not kept, as long as the search for the opening brace
passes over the comment. A brace in the comment is taken for that brace otherwise.

If the line is a name alone, the comment is taken for its type, and it is not reported that the
type is missing. -/
theorem parse_trailingComment {σ : Type} (source : IdSource σ) (st : σ)
    {before line c rest : List Char} (hb : '\'' ∉ before) (hl : '\'' ∉ line) (hr : '\'' ∉ rest)
    (hc : '\n' ∉ c) :
    let plain := before ++ (line ++ '\n' :: rest)
    let commented := before ++ (line ++ ' ' :: '/' :: '/' :: (c ++ '\n' :: rest))
    (∀ items header body lines, ReachesLine plain items header body lines (line ++ '\n' :: rest) →
      (∀ column : Column, ColumnText column line → column.EmitSafe →
        SameButPlaces (parseWith source st (String.ofList commented))
          (parseWith source st (String.ofList plain))) ∧
      (isWord line = true → Tame c → source.Total → ∃ ms ms',
        (parse source st (String.ofList plain)).messages =
            ms ++ ("Expected type for column \"" ++ String.ofList line ++ "\"") :: ms' ∧
          (parse source st (String.ofList commented)).messages = ms ++ ms')) ∧
    ∀ items, ReachesStatement plain items (line ++ '\n' :: rest) →
      ∀ header : BlockHeader, header.Plain → header.text = line → PassedOver c →
        SameButPlaces (parseWith source st (String.ofList commented))
          (parseWith source st (String.ofList plain)) := by
  dsimp only
  simp only [parseWith_eq, String.toList_ofList]
  refine ⟨fun items header body lines h => ⟨fun column ht hs => ?_, fun hw htame htotal => ?_⟩,
    fun items h header hh htext hpass => ?_⟩
  · obtain ⟨k, r, hline, hk⟩ := ht.head hs
    have hblank := not_blank_of_line hline hk before
    obtain ⟨l, hplain, hl'⟩ := ht.line? hs (.blanks blanks_nil) rest
    obtain ⟨l', hcomment, hl''⟩ := ht.line? hs
      (.slashComment (List.cons_ne_nil ' ' []) blanks_space hc) rest
    obtain ⟨o, p, b, ls, more, hread, hread'⟩ := h.read_comment hb hl (hline ▸ List.cons_ne_nil k r)
      hplain (c := c) (by simpa using hcomment)
    refine parseChars_of_unplaced source st (hblank _) (hblank _) ?_
    rw [hread, hread', unplaced_append, unplaced_append, unplaced_cons, unplaced_cons,
      tableWith_moved, tableWith_moved, hl', hl'']
  · obtain ⟨k, r, hline, hk⟩ := isWord_head hw
    have hblank := not_blank_of_line hline (.inl hk) before
    obtain ⟨d, hcomment, -, -⟩ := line?_name_comment hw htame rest
    obtain ⟨o, p, b, ls, more, hread, hread'⟩ := h.read_comment hb hl (hline ▸ List.cons_ne_nil k r)
      (line?_name_newline hw rest) hcomment
    obtain ⟨ms, ms', htable⟩ := causes_tableWith header b ls more
    have hcauses : ∀ m : Line, causes (o ++ tableWith header b ls m more :: p) =
        o.causes ++ ms ++ ((m.events.filterMap Event.fault?).map Fault.cause ++
          (ms' ++ p.causes)) := by
      intro m
      rw [causes_append, causes_cons, htable]
      simp only [List.append_assoc]
    have hmessages := messages_parse htotal st (hblank ('\n' :: rest))
    have hmessages' := messages_parse htotal st (hblank (behindComment c rest))
    rw [← causes_unplaced, hread, causes_unplaced, hcauses, List.map_append] at hmessages
    rw [← causes_unplaced, hread', causes_unplaced, hcauses, List.map_append] at hmessages'
    exact ⟨_, _, hmessages, hmessages'⟩
  · subst htext
    obtain ⟨k, r, hline, hk⟩ := hh.head []
    rw [List.append_nil] at hline
    have hblank := not_blank_of_line hline (.inl (by simp [isWordStart, hk])) before
    obtain ⟨q, hplain, hcomment⟩ := hh.item?_comment hpass hc hr
    exact parseChars_of_unplaced source st (hblank _) (hblank _)
      (h.read_comment hb hl (hline ▸ List.cons_ne_nil k r) hplain hcomment)

/-- A table up to the place where its second line may stand. -/
def openTable : List Char := "Table t \x7b\n  a int\n  ".toList

/-- The end of that table. -/
def tableEnd : List Char := "\x7d\n".toList

/-- The reader comes to the second line of the table. -/
theorem openTable_reachesLine {line : List Char} (h : line = "b text".toList ∨ line = "b".toList) :
    let text := openTable ++ (line ++ '\n' :: tableEnd)
    ReachesLine text [] ⟨"t", none, []⟩ (text.drop 9) [.column ⟨"a", "int", text.drop 17, []⟩]
      (line ++ '\n' :: tableEnd) := by
  dsimp only
  refine ⟨_, (openTable ++ (line ++ '\n' :: tableEnd)).drop 5,
    (openTable ++ (line ++ '\n' :: tableEnd)).drop 18, ⟨_, .nil _, rfl⟩, ?_, ?_,
    .cons ?_ (.nil _), ?_⟩
  all_goals rcases h with rfl | rfl <;> decide +kernel

def enumHeader : BlockHeader := ⟨"Enum".toList, " e".toList⟩

/-- What stands behind that header. -/
def enumBody : List Char := "\x7b\n  on\n\x7d".toList

/-- The reader comes to the header behind the table. -/
theorem enumHeader_reachesStatement :
    let text := openTable ++ tableEnd ++ (enumHeader.text ++ '\n' :: enumBody)
    ReachesStatement text
      [.table (.table ⟨⟨"t", none, []⟩, text.drop 9, [.column ⟨"a", "int", text.drop 17, []⟩]⟩)]
      (enumHeader.text ++ '\n' :: enumBody) :=
  ⟨'\n' :: (enumHeader.text ++ '\n' :: enumBody), .cons (by decide +kernel) (.nil _),
    by decide +kernel⟩

theorem parse_trailingComment_threeLines :
    (∃ items header body lines,
      ReachesLine (openTable ++ ("b text".toList ++ '\n' :: tableEnd)) items header body lines
        ("b text".toList ++ '\n' :: tableEnd)) ∧
    ColumnText (wordColumn ['b'] "text".toList) "b text".toList ∧
    (wordColumn ['b'] "text".toList).EmitSafe ∧
    SameButPlaces
      (parseWith .counting 1 "Table t \x7b\n  a int\n  b text // it's [a] \x7b\n\x7d\n")
      (parseWith .counting 1 "Table t \x7b\n  a int\n  b text\n\x7d\n") ∧
    (∃ items header body lines,
      ReachesLine (openTable ++ ("b".toList ++ '\n' :: tableEnd)) items header body lines
        ("b".toList ++ '\n' :: tableEnd)) ∧
    isWord "b".toList = true ∧ Tame " key".toList ∧ IdSource.counting.Total ∧
    (∃ ms ms',
      (parse .counting 1 "Table t \x7b\n  a int\n  b\n\x7d\n").messages =
          ms ++ "Expected type for column \"b\"" :: ms' ∧
        (parse .counting 1 "Table t \x7b\n  a int\n  b // key\n\x7d\n").messages = ms ++ ms') ∧
    (∃ items,
      ReachesStatement (openTable ++ tableEnd ++ (enumHeader.text ++ '\n' :: enumBody)) items
        (enumHeader.text ++ '\n' :: enumBody)) ∧
    enumHeader.Plain ∧ PassedOver " a \"\x7b\", it's".toList ∧
    SameButPlaces
      (parseWith .counting 1
        "Table t \x7b\n  a int\n  \x7d\nEnum e // a \"\x7b\", it's\n\x7b\n  on\n\x7d")
      (parseWith .counting 1 "Table t \x7b\n  a int\n  \x7d\nEnum e\n\x7b\n  on\n\x7d") := by
  obtain ⟨htext, hsafe⟩ := @columnText_words ['b'] "text".toList [' '] (by decide) (by decide)
    (by decide) blanks_space
  have hline := openTable_reachesLine (.inl rfl)
  have hname := openTable_reachesLine (.inr rfl)
  have htame : Tame " key".toList := by decide
  have hheader : enumHeader.Plain :=
    ⟨⟨"Enum", by decide, by decide +kernel⟩, by decide +kernel, by simp [enumHeader, isQuote]⟩
  have hpassed : PassedOver " a \"\x7b\", it's".toList := by decide +kernel
  have hopen : '\'' ∉ openTable := by decide +kernel
  have hcolumn := ((@parse_trailingComment _ .counting 1 openTable "b text".toList
    " it's [a] \x7b".toList tableEnd hopen (by decide) (by decide) (by decide +kernel)).1
      _ _ _ _ hline).1 _ htext hsafe
  have hmissing := ((@parse_trailingComment _ .counting 1 openTable "b".toList
    " key".toList tableEnd hopen (by decide) (by decide) (by decide)).1
      _ _ _ _ hname).2 (by decide) htame IdSource.counting_total
  have hskipped := (@parse_trailingComment _ .counting 1 (openTable ++ tableEnd) enumHeader.text
    " a \"\x7b\", it's".toList enumBody (by decide +kernel) (by decide) (by decide)
      (by decide +kernel)).2
      _ enumHeader_reachesStatement _ hheader rfl hpassed
  exact ⟨⟨_, _, _, _, hline⟩, htext, hsafe, hcolumn, ⟨_, _, _, _, hname⟩, by decide, htame,
    IdSource.counting_total, hmissing, ⟨_, enumHeader_reachesStatement⟩, hheader, hpassed,
    hskipped⟩

end Dbml
