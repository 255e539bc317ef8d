import Dbml.Canonical
import Mathlib.Data.List.TakeWhile

/-!
# Names and literals read back

`Canonical.identifier` and `Canonical.literal` write names and values; `readIdentifier` and
`readQuoted` read them, with any text behind them that cannot be taken for a part of them.

Results:
* `readIdentifier_identifier`: a name without backticks and newlines is read back;
* `readQuoted_literal`: every value is read back, if what follows its literal ends a value.
-/
namespace Dbml.Text

/-! ## Words -/

/-- A bare word: an ASCII letter or underscore, then ASCII letters, digits and underscores. -/
def isWord : List Char → Bool
  | [] => false
  | c :: r => isWordStart c && r.all isWordChar

/-- A text goes on with no character of a class. -/
def StopsAt (p : Char → Bool) (s : List Char) : Prop := ∀ c ∈ s.head?, p c = false

theorem stopsAt_nil (p : Char → Bool) : StopsAt p [] := by simp [StopsAt]

theorem stopsAt_cons {p : Char → Bool} {c : Char} {s : List Char} :
    StopsAt p (c :: s) ↔ p c = false := by simp [StopsAt]

theorem takeWhile_of_stopsAt {p : Char → Bool} {s : List Char} (h : StopsAt p s) :
    s.takeWhile p = [] ∧ s.dropWhile p = s := by
  cases s with
  | nil => exact ⟨rfl, rfl⟩
  | cons c s => have hc := stopsAt_cons.1 h; simp [hc]

theorem stopsAt_space (s : List Char) : StopsAt isWordChar (' ' :: s) := stopsAt_cons.2 (by decide)

theorem stopsAt_dropWhile (p : Char → Bool) (s : List Char) : StopsAt p (s.dropWhile p) := by
  intro c hc
  have := List.head?_dropWhile_not p s
  rw [Option.mem_def.1 hc] at this
  exact this

theorem skipInline_of_stopsAt {s : List Char} (h : StopsAt isInlineSpace s) : skipInline s = s :=
  (takeWhile_of_stopsAt h).2

theorem stopsAt_append {p : Char → Bool} {w : List Char} (hne : w ≠ [])
    (hw : ∀ c ∈ w, p c = false) (s : List Char) : StopsAt p (w ++ s) := by
  cases w with
  | nil => exact absurd rfl hne
  | cons c w => exact stopsAt_cons.2 (hw c List.mem_cons_self)

theorem skipInline_append {w : List Char} (h : ∀ c ∈ w, isInlineSpace c = true) (s : List Char) :
    skipInline (w ++ s) = skipInline s := List.dropWhile_append_of_pos h

theorem skipInline_skipInline (s : List Char) : skipInline (skipInline s) = skipInline s :=
  skipInline_of_stopsAt (stopsAt_dropWhile _ s)

theorem span_append {p : Char → Bool} {w s : List Char} (hw : ∀ c ∈ w, p c = true)
    (hs : StopsAt p s) : (w ++ s).takeWhile p = w ∧ (w ++ s).dropWhile p = s := by
  rw [List.takeWhile_append_of_pos hw, List.dropWhile_append_of_pos hw,
    (takeWhile_of_stopsAt hs).1, (takeWhile_of_stopsAt hs).2, List.append_nil]
  exact ⟨rfl, rfl⟩

/-- What stands behind a text does not matter for a run in the text, if it does not go on with it. -/
theorem span_append_of_stopsAt {p : Char → Bool} {x : List Char} (hx : StopsAt p x)
    (w : List Char) :
    (w ++ x).takeWhile p = w.takeWhile p ∧ (w ++ x).dropWhile p = w.dropWhile p ++ x := by
  obtain ⟨htake, hdrop⟩ := takeWhile_of_stopsAt hx
  induction w with
  | nil => exact ⟨htake, hdrop⟩
  | cons c w ih =>
    rw [List.cons_append]
    by_cases hc : p c = true
    · rw [List.takeWhile_cons_of_pos hc, List.takeWhile_cons_of_pos hc,
        List.dropWhile_cons_of_pos hc, List.dropWhile_cons_of_pos hc]
      exact ⟨congrArg (c :: ·) ih.1, ih.2⟩
    · rw [List.takeWhile_cons_of_neg hc, List.takeWhile_cons_of_neg hc,
        List.dropWhile_cons_of_neg hc, List.dropWhile_cons_of_neg hc]
      exact ⟨rfl, rfl⟩

theorem isWordChar_of_isWordStart {c : Char} (h : isWordStart c = true) : isWordChar c = true := by
  simp only [isWordStart, isWordChar, Char.isAlphanum, Bool.or_eq_true] at h ⊢
  rcases h with h | h
  · exact .inl (.inl h)
  · exact .inr h

/-- Blanks end a word. -/
theorem not_isWordChar_of_isInlineSpace {c : Char} (h : isInlineSpace c = true) :
    isWordChar c = false := by
  simp only [isInlineSpace, Bool.or_eq_true, beq_iff_eq] at h
  rcases h with (rfl | rfl) | rfl <;> rfl

theorem readWord_append {w s : List Char} (hw : isWord w = true) (hs : StopsAt isWordChar s) :
    readWord (w ++ s) = (w, s) := by
  cases w with
  | nil => simp [isWord] at hw
  | cons c w =>
    simp only [isWord, Bool.and_eq_true, List.all_eq_true] at hw
    obtain ⟨ht, hd⟩ := span_append hw.2 hs
    simp [readWord, hw.1, ht, hd]

theorem readWord_of_stopsAt {s : List Char} (h : StopsAt isWordStart s) : readWord s = ([], s) := by
  cases s with
  | nil => rfl
  | cons c s => have hc := stopsAt_cons.1 h; simp [readWord, hc]

/-! ## Letter case -/

theorem isAlpha_of_toLower {c : Char} (h : c.toLower.isAlpha = true) : c.isAlpha = true := by
  unfold Char.toLower at h
  split at h
  · rename_i hc
    have hupper : c.isUpper = true := decide_eq_true hc
    exact (Bool.or_eq_true ..).mpr (.inl hupper)
  · exact h

/-- What is a word of letters in small letters is one as it stands. -/
theorem isAlpha_of_folded {w k : List Char} (h : lower w = lower k)
    (hk : ∀ c ∈ k.map Char.toLower, c.isAlpha = true) : ∀ c ∈ w, c.isAlpha = true := by
  have hw : w.map Char.toLower = k.map Char.toLower := String.ofList_injective h
  intro c hc
  exact isAlpha_of_toLower (hk _ (hw ▸ List.mem_map_of_mem hc))

theorem isWord_of_folded {w k : List Char} (h : lower w = lower k) (hne : k ≠ [])
    (hk : (k.map Char.toLower).all Char.isAlpha = true) : isWord w = true := by
  have halpha := isAlpha_of_folded h (List.all_eq_true.1 hk)
  have hw : w.map Char.toLower = k.map Char.toLower := String.ofList_injective h
  cases w with
  | nil => exact absurd (List.map_eq_nil_iff.1 hw.symm) hne
  | cons c w =>
    rw [List.forall_mem_cons] at halpha
    simp only [isWord, isWordStart, halpha.1, Bool.true_or, Bool.true_and, List.all_eq_true]
    exact fun d hd => by simp [isWordChar, Char.isAlphanum, halpha.2 d hd]

/-! ## Filler -/

/-- The characters that may start filler. -/
def startsFiller (c : Char) : Bool := isInlineSpace c || c == '\n' || c == '/' || c == '#'

theorem skipFiller_of_stopsAt {s : List Char} (h : StopsAt startsFiller s) : skipFiller s = s := by
  refine skipMany_of_none ?_
  cases s with
  | nil => rfl
  | cons c s =>
    have hc := stopsAt_cons.1 h
    simp only [startsFiller, Bool.or_eq_false_iff, beq_eq_false_iff_ne] at hc
    obtain ⟨⟨⟨hb, hn⟩, hs⟩, hh⟩ := hc
    unfold fillerPiece? comment?
    simp only [hb, Bool.false_or, beq_iff_eq, hn, if_false]
    split <;> simp_all

theorem skipFiller_blank {c : Char} (h : isInlineSpace c = true ∨ c = '\n') (s : List Char) :
    skipFiller (c :: s) = skipFiller s := by
  refine skipMany_of_some ?_
  have : (isInlineSpace c || c == '\n') = true := by simpa using h
  simp [fillerPiece?, this]

theorem skipFiller_space (s : List Char) : skipFiller (' ' :: s) = skipFiller s :=
  skipFiller_blank (.inl rfl) s

theorem skipFiller_newline (s : List Char) : skipFiller ('\n' :: s) = skipFiller s :=
  skipFiller_blank (.inr rfl) s

theorem not_startsFiller_of_isWordStart {c : Char} (h : isWordStart c = true ∨ c = '\x60') :
    startsFiller c = false := by
  rw [Bool.eq_false_iff]
  intro hf
  simp only [startsFiller, isInlineSpace, Bool.or_eq_true, beq_iff_eq] at hf
  rcases hf with ((((rfl | rfl) | rfl) | rfl) | rfl) | rfl <;> revert h <;> decide

/-! ## Quoted tokens -/

theorem quotedChars_of_none {q : Char} {s : List Char} (h : quotedChar? q s = none) :
    quotedChars q s = ([], s) := many_of_none h

theorem quotedChars_of_some {q c : Char} {s r : List Char} (h : quotedChar? q s = some (c, r)) :
    quotedChars q s = (c :: (quotedChars q r).1, (quotedChars q r).2) := many_of_some h

theorem quotedChars_quote (q : Char) (s : List Char) : quotedChars q (q :: s) = ([], q :: s) :=
  quotedChars_of_none (by simp [quotedChar?])

theorem quotedChars_backtick {s : List Char} (hq : '\x60' ∉ s) (hn : '\n' ∉ s) (r : List Char) :
    quotedChars '\x60' (s ++ '\x60' :: r) = (s, '\x60' :: r) := by
  induction s with
  | nil => exact quotedChars_quote _ r
  | cons c s ih =>
    simp only [List.mem_cons, not_or] at hq hn
    have hc : quotedChar? '\x60' (c :: (s ++ '\x60' :: r)) = some (c, s ++ '\x60' :: r) := by
      simp [quotedChar?, Ne.symm hq.1, Ne.symm hn.1]
    rw [List.cons_append, quotedChars_of_some hc, ih hq.2 hn.2]

/-- A token in double quotes or backticks is read character by character. -/
theorem readQuoted_of_ne {q : Char} (h : q ≠ '\'') (s : List Char) :
    readQuoted (q :: s) = (quotedChars q s).map id (dropChar q) := by
  rw [readQuoted]
  exact fun r hq _ => h hq

theorem isBareName_iff_isWord {s : List Char} (h : '\n' ∉ s) :
    Canonical.isBareName s = isWord s := by
  cases s with
  | nil => rfl
  | cons c s =>
    simp only [List.mem_cons, not_or] at h
    have hd : isOver (s.dropWhile isWordChar) = s.all isWordChar := by
      rw [Bool.eq_iff_iff, isOver, Bool.or_eq_true, beq_iff_eq, beq_iff_eq, List.all_eq_true]
      constructor
      · rintro (he | he)
        · exact List.dropWhile_eq_nil_iff.1 he
        · exact absurd ((List.dropWhile_suffix _).mem (he ▸ List.mem_singleton_self _)) h.2
      · exact fun ha => .inl (List.dropWhile_eq_nil_iff.2 ha)
    rw [Canonical.isBareName, isWord, hd]

end Dbml.Text

namespace Dbml.Canonical

open Text

/-! ## Identifiers -/

theorem toList_identifier_of_isWord {name : String} (h : isWord name.toList = true)
    (hn : '\n' ∉ name.toList) : (identifier name).toList = name.toList := by
  rw [identifier, if_pos (by rw [isBareName_iff_isWord hn, h])]

theorem toList_identifier_of_not_isWord {name : String} (h : isWord name.toList = false)
    (hn : '\n' ∉ name.toList) :
    (identifier name).toList = '\x60' :: (name.toList ++ ['\x60']) := by
  rw [identifier, if_neg (by rw [isBareName_iff_isWord hn, h]; simp)]
  simp

/-- A name that is read back as it is: it is not empty and holds no backtick and no newline. -/
structure PlainName (name : String) : Prop where
  ne_nil : name.toList ≠ []
  no_backtick : '\x60' ∉ name.toList
  no_newline : '\n' ∉ name.toList

instance (name : String) : Decidable (PlainName name) :=
  decidable_of_iff (name.toList ≠ [] ∧ '\x60' ∉ name.toList ∧ '\n' ∉ name.toList)
    ⟨fun h => ⟨h.1, h.2.1, h.2.2⟩, fun h => ⟨h.ne_nil, h.no_backtick, h.no_newline⟩⟩

theorem readIdentifier_word {w s : List Char} (hw : isWord w = true) (hs : StopsAt isWordChar s) :
    readIdentifier (w ++ s) = (w, s) := by
  cases w with
  | nil => simp [isWord] at hw
  | cons c w =>
    have hc : isWordStart c = true := by
      simp only [isWord, Bool.and_eq_true] at hw; exact hw.1
    have hb : (c == '"' || c == '\x60') = false := by
      rw [Bool.or_eq_false_iff, beq_eq_false_iff_ne, beq_eq_false_iff_ne]
      constructor <;> (rintro rfl; revert hc; decide)
    rw [List.cons_append, readIdentifier]
    simp only [hb, Bool.false_eq_true, if_false]
    exact readWord_append hw hs

theorem readQuoted_backticks {s : List Char} (hq : '\x60' ∉ s) (hn : '\n' ∉ s) (r : List Char) :
    readQuoted ('\x60' :: (s ++ '\x60' :: r)) = (s, r) := by
  rw [readQuoted_of_ne (by decide), quotedChars_backtick hq hn]
  simp [dropChar]

/-- A name is read back from its identifier, whatever follows that does not go on with it. -/
theorem readIdentifier_identifier {name : String} (hq : '\x60' ∉ name.toList)
    (hn : '\n' ∉ name.toList) {s : List Char} (hs : StopsAt isWordChar s) :
    readIdentifier ((identifier name).toList ++ s) = (name.toList, s) := by
  cases h : isWord name.toList with
  | true =>
    rw [toList_identifier_of_isWord h hn]
    exact readIdentifier_word h hs
  | false =>
    rw [toList_identifier_of_not_isWord h hn, List.cons_append, List.append_assoc]
    exact readQuoted_backticks hq hn s

/-- An identifier starts with a letter, an underscore or a backtick. -/
theorem identifier_head {name : String} (hn : '\n' ∉ name.toList) :
    ∃ c r, (identifier name).toList = c :: r ∧ (isWordStart c = true ∨ c = '\x60') := by
  cases h : isWord name.toList with
  | true =>
    rw [toList_identifier_of_isWord h hn]
    cases e : name.toList with
    | nil => simp [e, isWord] at h
    | cons c r =>
      rw [e, isWord, Bool.and_eq_true] at h
      exact ⟨c, r, rfl, .inl h.1⟩
  | false => exact ⟨_, _, toList_identifier_of_not_isWord h hn, .inr rfl⟩

/-! ## Literals -/

theorem toList_literal (v : String) :
    (literal v).toList = '\'' :: (v.toList.flatMap escapeChar ++ ['\'']) := by
  simp [literal, escape]

/-- From every place inside an escaped value, the next quote that counts is its closing one. -/
theorem closesLater_escape (v s : List Char) :
    closesLater (v.flatMap escapeChar ++ '\'' :: s) = valueEnds (skipInline s) := by
  induction v with
  | nil => rfl
  | cons c v ih =>
    by_cases h : c = '\'' ∨ c = '\\'
    · have e : escapeChar c = ['\\', c] := by rcases h with rfl | rfl <;> rfl
      rw [List.flatMap_cons, e, List.append_assoc]
      exact ih
    · have e : escapeChar c = [c] := by simp only [escapeChar]; simp [not_or.1 h]
      rw [List.flatMap_cons, e, List.append_assoc, List.singleton_append, ← ih, closesLater]
      · exact fun hc _ => h (.inr hc)
      · exact fun d r hc _ => h (.inr hc)
      · exact fun hc => h (.inl hc)

theorem quotedChar?_escapeChar (c : Char) (v : List Char) {s : List Char}
    (hs : c = '\n' → valueEnds (skipInline s) = true) :
    quotedChar? '\'' (escapeChar c ++ (v.flatMap escapeChar ++ '\'' :: s)) =
      some (c, v.flatMap escapeChar ++ '\'' :: s) := by
  by_cases h : c = '\'' ∨ c = '\\'
  · rcases h with rfl | rfl <;> rfl
  · obtain ⟨hq, hb⟩ := not_or.1 h
    have e : escapeChar c = [c] := by simp [escapeChar, hq, hb]
    have hcl : c = '\n' → closesLater (v.flatMap escapeChar ++ '\'' :: s) = true :=
      fun hn => (closesLater_escape v s).trans (hs hn)
    rw [e, List.singleton_append]
    by_cases hn : c = '\n'
    · simp [quotedChar?, hn, hcl hn]
    · simp [quotedChar?, hq, hb, hn]

/-- A value is read up to the quote behind it, if it stands on one line or what follows that quote
ends a value. -/
theorem quotedChars_escape {v s : List Char}
    (hs : '\n' ∈ v → valueEnds (skipInline s) = true) :
    quotedChars '\'' (v.flatMap escapeChar ++ '\'' :: s) = (v, '\'' :: s) := by
  induction v with
  | nil => exact quotedChars_quote _ s
  | cons c v ih =>
    have hc : c = '\n' → valueEnds (skipInline s) = true := by
      rintro rfl; exact hs List.mem_cons_self
    rw [List.flatMap_cons, List.append_assoc, quotedChars_of_some (quotedChar?_escapeChar c v hc),
      ih fun h => hs (List.mem_cons_of_mem c h)]

/-- A literal opens no triple quote, unless it is empty and one more quote follows. -/
theorem readQuoted_literal_eq {v : String} {s : List Char}
    (h : v = "" → s.head? ≠ some '\'') :
    readQuoted ((literal v).toList ++ s) =
      (quotedChars '\'' (v.toList.flatMap escapeChar ++ '\'' :: s)).map id (dropChar '\'') := by
  have htriple : ∀ r, v.toList.flatMap escapeChar ++ '\'' :: s ≠ '\'' :: '\'' :: r := by
    intro r e
    cases hv : v.toList with
    | nil =>
      rw [hv] at e
      obtain rfl : s = '\'' :: r := (List.cons.inj e).2
      exact h (String.toList_injective hv) rfl
    | cons c w =>
      rw [hv, List.flatMap_cons, escapeChar] at e
      split at e
      · simp at e
      · rename_i h
        simp only [List.cons_append, List.cons.injEq] at e
        simp [e.1] at h
  rw [toList_literal, List.cons_append, List.append_assoc, List.singleton_append, readQuoted]
  exact fun r _ hr => htriple r hr

/-- What ends a value is no quote. -/
theorem head?_ne_quote {s : List Char} (hs : valueEnds (skipInline s) = true) :
    s.head? ≠ some '\'' := by
  intro h
  obtain ⟨r, rfl⟩ := List.head?_eq_some_iff.1 h
  simp [skipInline, isInlineSpace, valueEnds] at hs

/-- A value is read back from its literal, if what follows past blanks ends a value. -/
theorem readQuoted_literal (v : String) {s : List Char} (hs : valueEnds (skipInline s) = true) :
    readQuoted ((literal v).toList ++ s) = (v.toList, s) := by
  rw [readQuoted_literal_eq fun _ => head?_ne_quote hs, quotedChars_escape fun _ => hs]
  simp [dropChar]

end Dbml.Canonical
