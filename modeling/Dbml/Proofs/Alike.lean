import Dbml.Proofs.Moved
import Dbml.Proofs.Places
import Dbml.Proofs.Reread.Column

/-!
# Lines that are alike

Two texts are alike up to the end of their line if they hold the same characters up to its newline.
In front of the newline of the second text there may be a carriage return, if the line then has no
quotes and closes all its parentheses. What stands behind the newlines is another matter, and given
as a relation.

Readers that do not leave the line cannot tell such texts apart: they read the same and leave texts
that are alike. Without a carriage return nothing but single quotes could lead them on to the next
line.

Results:
* `many_agree`, `skipMany_alike`: what steps cannot tell apart, a repetition cannot;
* `readIdentifier_agree`, `readType_agree`, `readValue_agree`: neither can the readers of tokens;
* `scanColumn_agree`, `scanRefLine_agree`: neither can those of columns and relations.
-/
namespace Dbml

open Text Outline

/-! ## Texts that are alike -/

/-- A character of a line, with what stands behind it. Where there may be a carriage return at the
end of the line (`cr`), there is no other one and no quote, and parentheses are closed on the line.
Where not, nothing leads out of the line: no brace closes, and no block comment opens. -/
structure LineChar (cr : Prop) (c : Char) (r : List Char) : Prop where
  ne_newline : c ≠ '\n'
  ne_single : c ≠ '\''
  no_quote : cr → isQuote c = false
  ne_carriage : cr → c ≠ '\r'
  closes : cr → c = '(' → ∃ p t, r = p ++ t ∧ Closes 1 p
  no_brace : ¬cr → c ≠ '}'
  no_comment : ¬cr → c = '/' → r.head? ≠ some '*'

/-- Two texts that hold the same characters up to the end of their line, a carriage return in front
of the newline of the second one apart. Where a text ends instead, nothing stands behind. -/
inductive LineAlike (cr : Prop) (Behind : List Char → List Char → Prop) :
    List Char → List Char → Prop
  | ended (h : Behind [] []) : LineAlike cr Behind [] []
  | newline {r r' : List Char} (h : Behind r r') : LineAlike cr Behind ('\n' :: r) ('\n' :: r')
  | carriage {r r' : List Char} (hcr : cr) (h : Behind r r') :
    LineAlike cr Behind ('\n' :: r) ('\r' :: '\n' :: r')
  | char {c : Char} {r r' : List Char} (hc : LineChar cr c r) (h : LineAlike cr Behind r r') :
    LineAlike cr Behind (c :: r) (c :: r')

/-- Two results of a reader that agree: what was read is the same up to `f`, and what is left is
alike. -/
structure Agree {α : Type} (Like : List Char → List Char → Prop) (f : α → α)
    (p p' : α × List Char) : Prop where
  value : p.1 = f p'.1
  rest : Like p.2 p'.2

/-- Two texts that a skipping step cannot tell apart. It may skip a character more in the second. -/
inductive SkipsAlike (Like : List Char → List Char → Prop) (step : List Char → Option (List Char))
    (s s' : List Char) : Prop
  | stop (h : step s = none) (h' : step s' = none)
  | go {r r' : List Char} (h : step s = some r) (h' : step s' = some r') (hr : Like r r')
  | stay {r' : List Char} (h' : step s' = some r') (hr : Like s r')

theorem SkipsAlike.of_rel {Like : List Char → List Char → Prop}
    {step : List Char → Option (List Char)} {s s' : List Char}
    (h : Option.Rel Like (step s) (step s')) : SkipsAlike Like step s s' := by
  generalize ht : step s = t at h
  generalize ht' : step s' = t' at h
  cases h with
  | none => exact .stop ht ht'
  | some h => exact .go ht ht' h

/-! ## Repetitions -/

section Repetitions

variable {Like : List Char → List Char → Prop} {s s' : List Char}

/-- What a step cannot tell apart, its repetition cannot. -/
theorem many_agree {α : Type} {step : List Char → Option (α × List Char)} {p : Progresses step}
    {f : α → α} (h : ∀ s s', Like s s' → Option.Rel (Agree Like f) (step s) (step s'))
    (hs : Like s s') : Agree Like (List.map f) (many step p s) (many step p s') := by
  refine many_induction (motive := fun s as t =>
    ∀ s', Like s s' → Agree Like (List.map f) (as, t) (many step p s')) ?_ ?_ s s' hs
  · intro s hstop s' hs
    have hrel := h s s' hs
    rw [hstop] at hrel
    cases hstep : step s' with
    | none => rw [many_of_none hstep]; exact ⟨rfl, hs⟩
    | some q => rw [hstep] at hrel; cases hrel
  · intro s a r as t hgo ih s' hs
    have hrel := h s s' hs
    rw [hgo] at hrel
    cases hstep : step s' with
    | none => rw [hstep] at hrel; cases hrel
    | some q =>
      obtain ⟨a', r'⟩ := q
      rw [hstep] at hrel
      cases hrel with
      | some hq =>
        have hrest := ih r' hq.rest
        rw [many_of_some hstep]
        exact ⟨congrArg₂ List.cons hq.value hrest.value, hrest.rest⟩

theorem skipMany_alike {step : List Char → Option (List Char)} {p : Skips step}
    (h : ∀ s s', Like s s' → SkipsAlike Like step s s') (hs : Like s s') :
    Like (skipMany step p s) (skipMany step p s') := by
  induction hn : s'.length using Nat.strongRecOn generalizing s s' with
  | _ n ih =>
    cases h s s' hs with
    | stop hstop hstop' => rw [skipMany_of_none hstop, skipMany_of_none hstop']; exact hs
    | @go r r' hgo hgo' hr =>
      rw [skipMany_of_some hgo, skipMany_of_some hgo']
      exact ih r'.length (hn ▸ (p hgo').2) hr rfl
    | @stay r' hgo' hr =>
      rw [skipMany_of_some hgo']
      exact ih r'.length (hn ▸ (p hgo').2) hr rfl

end Repetitions

variable {cr : Prop} {Behind : List Char → List Char → Prop} {s s' : List Char}

/-! ## Blanks and words -/

namespace LineAlike

theorem dropWhile {p : Char → Bool} (hp : p '\n' = false) (h : LineAlike cr Behind s s') :
    LineAlike cr Behind (s.dropWhile p) (s'.dropWhile p) := by
  induction h with
  | ended h => exact .ended h
  | newline h => rw [List.dropWhile_cons, List.dropWhile_cons, hp]; exact .newline h
  | carriage hcr h =>
    rw [List.dropWhile_cons, List.dropWhile_cons, List.dropWhile_cons, hp]
    cases p '\r' with
    | true => exact .newline h
    | false => exact .carriage hcr h
  | @char c r r' hc h ih =>
    rw [List.dropWhile_cons, List.dropWhile_cons]
    cases p c with
    | true => exact ih
    | false => exact .char hc h

/-- What is taken up to the end of the line is the same, a carriage return apart. -/
theorem takeWhile_or {p : Char → Bool} (hp : p '\n' = false) (h : LineAlike cr Behind s s') :
    s.takeWhile p = s'.takeWhile p ∨
      p '\r' = true ∧ s.takeWhile p ++ ['\r'] = s'.takeWhile p := by
  induction h with
  | ended => exact .inl rfl
  | newline h => rw [List.takeWhile_cons, List.takeWhile_cons, hp]; exact .inl rfl
  | carriage hcr h =>
    rw [List.takeWhile_cons, List.takeWhile_cons, List.takeWhile_cons, hp]
    cases hr : p '\r' with
    | true => exact .inr ⟨rfl, rfl⟩
    | false => exact .inl rfl
  | @char c r r' hc h ih =>
    rw [List.takeWhile_cons, List.takeWhile_cons]
    cases p c with
    | true => exact ih.imp (congrArg (c :: ·)) fun h => ⟨h.1, congrArg (c :: ·) h.2⟩
    | false => exact .inl rfl

theorem takeWhile {p : Char → Bool} (hp : p '\n' = false) (hr : p '\r' = false)
    (h : LineAlike cr Behind s s') : s.takeWhile p = s'.takeWhile p := by
  rcases h.takeWhile_or hp with h | ⟨hr', -⟩
  · exact h
  · rw [hr] at hr'; exact absurd hr' Bool.false_ne_true

/-- A character other than newlines and carriage returns stands at the front of both texts or of
none. -/
theorem cons_or {k : Char} (hn : k ≠ '\n') (hk : k ≠ '\r') (h : LineAlike cr Behind s s') :
    (∃ r r', s = k :: r ∧ s' = k :: r' ∧ LineAlike cr Behind r r') ∨
      (∀ r, s ≠ k :: r) ∧ ∀ r, s' ≠ k :: r := by
  cases h with
  | @char c r r' hc h =>
    by_cases hck : c = k
    · exact .inl ⟨r, r', by rw [hck], by rw [hck], h⟩
    · exact .inr (by simp [hck])
  | _ => exact .inr (by simp [hn.symm, hk.symm])

end LineAlike

variable (h : LineAlike cr Behind s s')
include h

theorem skipInline_alike : LineAlike cr Behind (skipInline s) (skipInline s') :=
  h.dropWhile (p := isInlineSpace) (by decide)

theorem skipSeparators_alike : LineAlike cr Behind (skipSeparators s) (skipSeparators s') :=
  h.dropWhile (by decide)

theorem dropChar_alike (k : Char) (hn : k ≠ '\n') (hk : k ≠ '\r') :
    LineAlike cr Behind (dropChar k s) (dropChar k s') := by
  cases h with
  | ended h => exact .ended h
  | newline h => simpa [dropChar, hn.symm] using .newline h
  | carriage hcr h => simpa [dropChar, hn.symm, hk.symm] using .carriage hcr h
  | @char c r r' hc h =>
    by_cases hck : c = k
    · simpa [dropChar, hck] using h
    · simpa [dropChar, hck] using .char hc h

theorem readWord_agree : Agree (LineAlike cr Behind) id (readWord s) (readWord s') := by
  cases h with
  | ended h => exact ⟨rfl, .ended h⟩
  | newline h => exact ⟨rfl, .newline h⟩
  | carriage hcr h => exact ⟨rfl, .carriage hcr h⟩
  | @char c r r' hc h =>
    have htake := h.takeWhile (p := isWordChar) (by decide) (by decide)
    have hdrop := h.dropWhile (p := isWordChar) (by decide)
    rw [readWord, readWord]
    cases isWordStart c with
    | true => exact ⟨congrArg (c :: ·) htake, hdrop⟩
    | false => exact ⟨rfl, .char hc h⟩

/-! ## Quoted tokens -/

/-- Without single quotes no token goes on behind the newline. -/
theorem quotedChar?_agree {q : Char} (hq : q ≠ '\'') (hcr : ¬cr) :
    Option.Rel (Agree (LineAlike cr Behind) id) (quotedChar? q s) (quotedChar? q s') := by
  have hsingle : (q == '\'') = false := beq_false_of_ne hq
  cases h with
  | ended => exact .none
  | newline h =>
    simp only [quotedChar?, hsingle, beq_self_eq_true, Bool.false_and, Bool.not_false,
      Bool.and_true, Bool.or_true, if_true]
    exact .none
  | carriage h' => exact absurd h' hcr
  | @char c r r' hc h =>
    have hn : (c == '\n') = false := beq_false_of_ne hc.ne_newline
    simp only [quotedChar?, hn, Bool.false_and, Bool.or_false]
    split
    · exact .none
    · split
      · -- What a backslash escapes is on the line, or it escapes nothing.
        cases h with
        | ended h => exact .some ⟨rfl, .ended h⟩
        | newline h => exact .some ⟨rfl, .newline h⟩
        | carriage h' => exact absurd h' hcr
        | @char d t t' hd h =>
          have hdn : (d == '\n') = false := beq_false_of_ne hd.ne_newline
          simp only [hdn]
          exact .some ⟨rfl, h⟩
      · exact .some ⟨rfl, h⟩

omit h in
theorem readQuoted_agree {c : Char} {r r' : List Char} (hcr : ¬cr) (hc : LineChar cr c r)
    (hr : c ≠ '\r') (h : LineAlike cr Behind r r') :
    Agree (LineAlike cr Behind) id (readQuoted (c :: r)) (readQuoted (c :: r')) := by
  have hchars : Agree (LineAlike cr Behind) (List.map id) (quotedChars c r) (quotedChars c r') :=
    many_agree (fun _ _ h => quotedChar?_agree h hc.ne_single hcr) h
  rw [readQuoted_of_ne hc.ne_single, readQuoted_of_ne hc.ne_single]
  refine ⟨?_, dropChar_alike hchars.rest c hc.ne_newline hr⟩
  simpa using hchars.value

theorem readIdentifier_agree :
    Agree (LineAlike cr Behind) id (readIdentifier s) (readIdentifier s') := by
  have hword := readWord_agree h
  cases h with
  | ended h => exact ⟨rfl, .ended h⟩
  | newline h => exact hword
  | carriage hcr h => exact hword
  | @char c r r' hc h =>
    rw [readIdentifier, readIdentifier]
    split
    · rename_i hq
      have hcr : ¬cr := fun hcr => by
        have := hc.no_quote hcr
        simp only [isQuote, Bool.or_eq_false_iff] at this
        simp only [this.1.1, this.2] at hq
        exact Bool.noConfusion hq
      refine readQuoted_agree hcr hc ?_ h
      rintro rfl
      exact absurd hq (by decide)
    · exact hword

/-! ## Types -/

theorem readParameter_agree (depth : Nat)
    (hclose : cr → ∃ p t, s = p ++ t ∧ Closes (depth + 1) p) :
    Agree (LineAlike cr Behind) id (readParameter depth s) (readParameter depth s') := by
  induction h generalizing depth with
  | ended h => exact ⟨rfl, .ended h⟩
  | newline h => rw [readParameter_newline, readParameter_newline]; exact ⟨rfl, .newline h⟩
  | carriage hcr h =>
    obtain ⟨p, t, he, hp⟩ := hclose hcr
    cases p with
    | nil => exact absurd hp (not_closes_succ_nil depth)
    | cons c p =>
      exact absurd (by rw [← (List.cons.inj he).1]; exact List.mem_cons_self) hp.oneLine
  | @char c r r' hc h ih =>
    cases e : depthAfter (depth + 1) c with
    | zero =>
      rw [readParameter_last hc.ne_newline e, readParameter_last hc.ne_newline e]
      exact ⟨rfl, h⟩
    | succ outer =>
      have hrest : Agree (LineAlike cr Behind) id (readParameter outer r)
          (readParameter outer r') := by
        refine ih outer fun hcr => ?_
        obtain ⟨p, t, he, hp⟩ := hclose hcr
        cases p with
        | nil => exact absurd hp (not_closes_succ_nil depth)
        | cons d p =>
          obtain ⟨rfl, rfl⟩ := List.cons.inj he
          exact ⟨p, t, rfl, e ▸ ((closes_cons (Nat.succ_pos depth)).1 hp).2⟩
      rw [readParameter_next hc.ne_newline e, readParameter_next hc.ne_newline e]
      exact ⟨congrArg (c :: ·) hrest.value, hrest.rest⟩

theorem readBareType_agree :
    Agree (LineAlike cr Behind) id (readBareType s) (readBareType s') := by
  have htake := h.takeWhile (p := isTypeChar) (by decide) (by decide)
  have hdrop := h.dropWhile (p := isTypeChar) (by decide)
  have hskip := skipInline_alike hdrop
  unfold readBareType
  dsimp only
  rw [htake]
  split
  · exact ⟨rfl, hdrop⟩
  · generalize skipInline (s.dropWhile isTypeChar) = r at hskip ⊢
    generalize skipInline (s'.dropWhile isTypeChar) = r' at hskip ⊢
    cases hskip with
    | ended h => exact ⟨rfl, .ended h⟩
    | newline h => exact ⟨rfl, .newline h⟩
    | carriage hcr h => exact ⟨rfl, .carriage hcr h⟩
    | @char c t t' hc h =>
      by_cases ho : c = '('
      · subst ho
        have hparam := readParameter_agree h 0 fun hcr => hc.closes hcr rfl
        exact ⟨congrArg (fun p => s'.takeWhile isTypeChar ++ '(' :: p) hparam.value, hparam.rest⟩
      · split
        · rename_i e; exact absurd (List.cons.inj e).1 ho
        · split
          · rename_i e; exact absurd (List.cons.inj e).1 ho
          · exact ⟨rfl, .char hc h⟩

theorem readType_agree : Agree (LineAlike cr Behind) id (readType s) (readType s') := by
  have hbare := readBareType_agree h
  by_cases hq : s.head? = some '"'
  · cases h with
    | ended => simp at hq
    | newline h => simp at hq
    | carriage hcr h => simp at hq
    | @char c r r' hc h =>
      obtain rfl : c = '"' := by simpa using hq
      have hcr : ¬cr := fun hcr => absurd (hc.no_quote hcr) (by decide)
      exact readQuoted_agree hcr hc (by decide) h
  · have hq' : s'.head? ≠ some '"' := by
      cases h with
      | char => exact hq
      | _ => simp
    rw [readType_of_no_quote hq, readType_of_no_quote hq']
    exact hbare

/-! ## Values and settings -/

omit h in
/-- A blank behind a text is trimmed. -/
theorem trim_append_blank {c : Char} (hc : isBlank c = true) (w : List Char) :
    trim (w ++ [c]) = trim w := by
  have hlast : [c].dropWhile isBlank = [] := by rw [List.dropWhile_cons, if_pos hc]; rfl
  rw [trim, trim, trimOf, trimOf, List.dropWhile_append]
  split
  · rename_i he
    rw [hlast, List.isEmpty_iff.1 he]
  · rw [List.reverse_append, List.reverse_singleton, List.singleton_append, List.dropWhile_cons,
      if_pos hc]

theorem readValue_agree : Agree (LineAlike cr Behind) id (readValue s) (readValue s') := by
  have hdrop := h.dropWhile (p := (!endsSetting ·)) (by decide)
  have htrim : trim (s.takeWhile (!endsSetting ·)) = trim (s'.takeWhile (!endsSetting ·)) := by
    rcases h.takeWhile_or (p := (!endsSetting ·)) (by decide) with he | ⟨-, he⟩
    · rw [he]
    · rw [← he, trim_append_blank (by decide)]
  cases h with
  | ended h => exact ⟨rfl, .ended h⟩
  | newline h => exact ⟨htrim, hdrop⟩
  | carriage hcr h => exact ⟨htrim, hdrop⟩
  | @char c r r' hc h =>
    rw [readValue, readValue]
    cases hq : isQuote c with
    | true =>
      refine readQuoted_agree (fun hcr => ?_) hc ?_ h
      · rw [hc.no_quote hcr] at hq; exact Bool.noConfusion hq
      · rintro rfl; exact absurd hq (by decide)
    | false => exact ⟨htrim, hdrop⟩

theorem colonValue?_agree :
    Option.Rel (Agree (LineAlike cr Behind) id) (colonValue? s) (colonValue? s') := by
  cases h with
  | ended => exact .none
  | newline h => exact .none
  | carriage hcr h => exact .none
  | @char c r r' hc h =>
    by_cases hcolon : c = ':'
    · subst hcolon
      have hvalue := readValue_agree (skipInline_alike h)
      exact .some ⟨congrArg String.ofList hvalue.value, hvalue.rest⟩
    · have hnone : ∀ t, colonValue? (c :: t) = none := by
        intro t; unfold colonValue?; split
        · rename_i e; exact absurd (List.cons.inj e).1 hcolon
        · rfl
      rw [hnone, hnone]
      exact .none

omit h in
theorem settingPiece?_skipsAlike (s s' : List Char) (h : LineAlike cr Behind s s') :
    SkipsAlike (LineAlike cr Behind) settingPiece? s s' := by
  cases h with
  | ended => exact .stop rfl rfl
  | newline h => exact .stop rfl rfl
  | carriage hcr h => exact .stay rfl (.newline h)
  | @char c r r' hc h =>
    cases he : endsSetting c with
    | true => exact .stop (by rw [settingPiece?, if_pos he]) (by rw [settingPiece?, if_pos he])
    | false =>
      cases hq : isQuote c with
      | true =>
        have hread : Agree (LineAlike cr Behind) id (readQuoted (c :: r)) (readQuoted (c :: r')) := by
          refine readQuoted_agree (fun hcr => ?_) hc ?_ h
          · rw [hc.no_quote hcr] at hq; exact Bool.noConfusion hq
          · rintro rfl; exact absurd hq (by decide)
        exact .go (by simp [settingPiece?, he, hq]) (by simp [settingPiece?, he, hq]) hread.rest
      | false => exact .go (by simp [settingPiece?, he, hq]) (by simp [settingPiece?, he, hq]) h

theorem skipSetting_alike : LineAlike cr Behind (skipSetting s) (skipSetting s') :=
  skipMany_alike settingPiece?_skipsAlike h

/-! ## References -/

omit h in
theorem namePart?_agree (s s' : List Char) (h : LineAlike cr Behind s s') :
    Option.Rel (Agree (LineAlike cr Behind) id) (namePart? s) (namePart? s') := by
  cases h with
  | ended => exact .none
  | newline h => exact .none
  | carriage hcr h => exact .none
  | @char c r r' hc h =>
    by_cases hdot : c = '.'
    · subst hdot
      have hname := readIdentifier_agree h
      rw [namePart?, namePart?]
      dsimp only
      rw [hname.value, id]
      split
      · exact .none
      · exact .some ⟨rfl, hname.rest⟩
    · have hnone : ∀ t, namePart? (c :: t) = none := by
        intro t; unfold namePart?; split
        · rename_i e; exact absurd (List.cons.inj e).1 hdot
        · rfl
      rw [hnone, hnone]
      exact .none

omit h in
theorem endpointOfNames_of_head_ne (names : List String) (h : s.head? ≠ some '.') :
    endpointOfNames names s = ((endpointOfNames names []).1, s) := by
  unfold endpointOfNames
  split
  · exact absurd rfl h
  · exact absurd rfl h
  · split <;> rfl

theorem endpointOfNames_agree (names : List String) :
    Agree (LineAlike cr Behind) id (endpointOfNames names s) (endpointOfNames names s') := by
  have hplain : ∀ {t t' : List Char}, LineAlike cr Behind t t' → t.head? ≠ some '.' →
      t'.head? ≠ some '.' →
      Agree (LineAlike cr Behind) id (endpointOfNames names t) (endpointOfNames names t') := by
    intro t t' h ht ht'
    rw [endpointOfNames_of_head_ne names ht, endpointOfNames_of_head_ne names ht']
    exact ⟨rfl, h⟩
  cases h with
  | ended h => exact hplain (.ended h) (by simp) (by simp)
  | newline h => exact hplain (.newline h) (by simp) (by simp)
  | carriage hcr h => exact hplain (.carriage hcr h) (by simp) (by simp)
  | @char c r r' hc h =>
    by_cases hdot : c = '.'
    · subst hdot
      have hname := (readIdentifier_agree h).rest
      cases h with
      | ended => exact ⟨rfl, hname⟩
      | newline h => exact ⟨rfl, hname⟩
      | carriage hcr h => exact ⟨rfl, hname⟩
      | @char d t t' hd h =>
        by_cases ho : d = '('
        · subst ho; exact ⟨rfl, .char hd h⟩
        · have hmalformed : ∀ u, endpointOfNames names ('.' :: d :: u) =
              (.malformed, (readIdentifier (d :: u)).2) := by
            intro u; unfold endpointOfNames; split
            · rename_i e; exact absurd (List.cons.inj (List.cons.inj e).2).1 ho
            · rename_i e; rw [(List.cons.inj e).2]
            · rename_i e; exact absurd rfl (e _)
          rw [hmalformed, hmalformed]
          exact ⟨rfl, hname⟩
    · exact hplain (.char hc h) (by simpa using hdot) (by simpa using hdot)

omit h in
theorem readEndpoint_of_ne (h : ∀ t, s ≠ '(' :: t) :
    readEndpoint s =
      if (readIdentifier s).1.isEmpty then (.malformed, (readIdentifier s).2)
      else
        endpointOfNames (String.ofList (readIdentifier s).1 ::
          (many namePart? namePart?_progresses (readIdentifier s).2).1)
          (many namePart? namePart?_progresses (readIdentifier s).2).2 := by
  unfold readEndpoint
  split
  · exact absurd rfl (h _)
  · rfl

theorem readEndpoint_agree :
    Agree (LineAlike cr Behind) id (readEndpoint s) (readEndpoint s') := by
  have hplain : (∀ t, s ≠ '(' :: t) → (∀ t, s' ≠ '(' :: t) →
      Agree (LineAlike cr Behind) id (readEndpoint s) (readEndpoint s') := by
    intro hs hs'
    have hname := readIdentifier_agree h
    have hnames := many_agree (p := namePart?_progresses) namePart?_agree hname.rest
    have hend := endpointOfNames_agree hnames.rest (String.ofList (readIdentifier s').1 ::
      (many namePart? namePart?_progresses (readIdentifier s').2).1)
    rw [readEndpoint_of_ne hs, readEndpoint_of_ne hs', hname.value, hnames.value, List.map_id]
    dsimp only [id]
    split
    · exact ⟨rfl, hname.rest⟩
    · exact hend
  rcases h.cons_or (k := '(') (by decide) (by decide) with ⟨t, t', rfl, rfl, -⟩ | ⟨hs, hs'⟩
  · exact ⟨rfl, h⟩
  · exact hplain hs hs'

theorem readSymbol?_agree :
    Option.Rel (Agree (LineAlike cr Behind) id) (readSymbol? s) (readSymbol? s') := by
  cases h with
  | ended => exact .none
  | newline h => exact .none
  | carriage hcr h => exact .none
  | @char c r r' hc h =>
    by_cases hl : c = '<'
    · subst hl
      cases h with
      | ended h => exact .some ⟨rfl, .ended h⟩
      | newline h => exact .some ⟨rfl, .newline h⟩
      | carriage hcr h => exact .some ⟨rfl, .carriage hcr h⟩
      | @char d t t' hd h =>
        by_cases hg : d = '>'
        · subst hg; exact .some ⟨rfl, h⟩
        · have hone : ∀ u, readSymbol? ('<' :: d :: u) = some (.oneToMany, d :: u) := by
            intro u; simp [readSymbol?, hg]
          rw [hone, hone]
          exact .some ⟨rfl, .char hd h⟩
    · by_cases hg : c = '>'
      · subst hg; exact .some ⟨rfl, h⟩
      · by_cases hm : c = '-'
        · subst hm; exact .some ⟨rfl, h⟩
        · have hnone : ∀ u, readSymbol? (c :: u) = none := by
            intro u; simp [readSymbol?, hl, hg, hm]
          rw [hnone, hnone]
          exact .none

/-- The text behind a colon at the front and the blanks that follow it, if a colon stands there. -/
def behindColon (s : List Char) : List Char :=
  match s with
  | ':' :: r => skipInline r
  | _ => s

theorem behindColon_alike : LineAlike cr Behind (behindColon s) (behindColon s') := by
  cases h with
  | ended h => exact .ended h
  | newline h => exact .newline h
  | carriage hcr h => exact .carriage hcr h
  | @char c r r' hc h =>
    by_cases hcolon : c = ':'
    · subst hcolon; exact skipInline_alike h
    · have hsame : ∀ t, behindColon (c :: t) = c :: t := by intro t; simp [behindColon, hcolon]
      rw [hsame, hsame]
      exact .char hc h

/-- The name of a column, if an endpoint is one. -/
def Outline.EndpointText.name? : EndpointText → Option ColumnName
  | .named name => some name
  | _ => none

omit h in
theorem readInlineRef_of_none (hsymbol : readSymbol? (behindColon s) = none) :
    readInlineRef s = (none, behindColon s) := by
  unfold readInlineRef
  dsimp only
  split
  · rfl
  · rename_i e; cases hsymbol.symm.trans e

omit h in
theorem readInlineRef_of_some {k : Cardinality} {r : List Char}
    (hsymbol : readSymbol? (behindColon s) = some (k, r)) :
    readInlineRef s = ((readEndpoint (skipInline r)).1.name?.map (InlineRef.mk k),
      (readEndpoint (skipInline r)).2) := by
  unfold readInlineRef
  dsimp only
  split
  · rename_i e; cases hsymbol.symm.trans e
  · rename_i k' r' e
    obtain ⟨rfl, rfl⟩ := Prod.mk.inj (Option.some.inj (hsymbol.symm.trans e))
    generalize readEndpoint (skipInline r) = p
    obtain ⟨v, t⟩ := p
    cases v <;> rfl

theorem readInlineRef_agree :
    Agree (LineAlike cr Behind) id (readInlineRef s) (readInlineRef s') := by
  have hbehind := behindColon_alike h
  have hsymbol := readSymbol?_agree hbehind
  cases hs : readSymbol? (behindColon s) with
  | none =>
    cases hs' : readSymbol? (behindColon s') with
    | none =>
      rw [readInlineRef_of_none hs, readInlineRef_of_none hs']
      exact ⟨rfl, hbehind⟩
    | some p => rw [hs, hs'] at hsymbol; cases hsymbol
  | some p =>
    cases hs' : readSymbol? (behindColon s') with
    | none => rw [hs, hs'] at hsymbol; cases hsymbol
    | some p' =>
      obtain ⟨k, r⟩ := p
      obtain ⟨k', r'⟩ := p'
      rw [hs, hs'] at hsymbol
      cases hsymbol with
      | some hp =>
        obtain rfl : k = k' := hp.value
        obtain ⟨hvalue, hrest⟩ := readEndpoint_agree (skipInline_alike hp.rest)
        rw [readInlineRef_of_some hs, readInlineRef_of_some hs']
        exact ⟨congrArg (fun v : EndpointText => v.name?.map (InlineRef.mk k)) hvalue, hrest⟩

/-! ## Columns -/

theorem readSettingOf_agree (word : Option SettingWord) :
    Agree (LineAlike cr Behind) id (readSettingOf word s) (readSettingOf word s') := by
  have hword := readWord_agree h
  have hother : Agree (LineAlike cr Behind) id (ColumnSetting.other, skipSetting s)
      (ColumnSetting.other, skipSetting s') := ⟨rfl, skipSetting_alike h⟩
  have hvalue := colonValue?_agree h
  rcases word with _ | word
  · exact hother
  · cases word with
    | primary =>
      simp only [readSettingOf, hword.value, id]
      split
      · exact ⟨rfl, hword.rest⟩
      · exact ⟨rfl, h⟩
    | not =>
      simp only [readSettingOf, hword.value, id]
      exact ⟨rfl, hword.rest⟩
    | defaultValue =>
      unfold readSettingOf
      dsimp only
      generalize colonValue? s = o at hvalue ⊢
      generalize colonValue? s' = o' at hvalue ⊢
      cases hvalue with
      | none => exact hother
      | some hp => exact ⟨congrArg ColumnSetting.defaultValue hp.value, hp.rest⟩
    | note =>
      unfold readSettingOf
      dsimp only
      generalize colonValue? s = o at hvalue ⊢
      generalize colonValue? s' = o' at hvalue ⊢
      cases hvalue with
      | none => exact hother
      | some hp => exact ⟨congrArg ColumnSetting.note hp.value, hp.rest⟩
    | reference =>
      have href := readInlineRef_agree h
      exact ⟨congrArg ColumnSetting.reference href.value, href.rest.dropWhile (by decide)⟩
    | _ => exact ⟨rfl, h⟩

theorem readSetting_agree :
    Agree (LineAlike cr Behind) id (readSetting s) (readSetting s') := by
  have hword := readWord_agree h
  have hsetting := readSettingOf_agree (skipInline_alike hword.rest)
    (SettingWord.ofWord? (readWord s').1)
  rw [readSetting, readSetting]
  dsimp only
  rw [hword.value]
  exact hsetting

omit h in
theorem columnSetting?_agree (s s' : List Char) (h : LineAlike cr Behind s s') :
    Option.Rel (Agree (LineAlike cr Behind) id) (columnSetting? s) (columnSetting? s') := by
  have hsep := skipSeparators_alike h
  unfold columnSetting?
  generalize skipSeparators s = t at hsep ⊢
  generalize ht' : skipSeparators s' = t' at hsep ⊢
  cases hsep with
  | ended => exact .none
  | newline h => exact .none
  | carriage hcr h => exact absurd (skipSeparators_head ht').1 (by decide)
  | @char c r r' hc h =>
    dsimp only
    split
    · exact .none
    · exact .some (readSetting_agree (.char hc h))

theorem readColumnSettings_agree :
    Agree (LineAlike cr Behind) id (readColumnSettings s) (readColumnSettings s') := by
  have hmany := many_agree (p := columnSetting?_progresses) columnSetting?_agree h
  refine ⟨?_, dropChar_alike (skipSeparators_alike hmany.rest) ']' (by decide) (by decide)⟩
  simpa [readColumnSettings] using hmany.value

theorem readOptionalSettings_agree :
    Agree (LineAlike cr Behind) id (readOptionalSettings s) (readOptionalSettings s') := by
  cases h with
  | ended h => exact ⟨rfl, .ended h⟩
  | newline h => exact ⟨rfl, .newline h⟩
  | carriage hcr h => exact ⟨rfl, .carriage hcr h⟩
  | @char c r r' hc h =>
    by_cases ho : c = '['
    · subst ho; exact readColumnSettings_agree h
    · have hnone : ∀ t, readOptionalSettings (c :: t) = ([], c :: t) := by
        intro t; simp [readOptionalSettings, ho]
      rw [hnone, hnone]
      exact ⟨rfl, .char hc h⟩

section Places

variable {f : List Char → List Char} (hf : ∀ r r', LineAlike cr Behind r r' → r = f r')
include hf

/-- A column is read in the same way, at another place. -/
theorem scanColumn_agree :
    Agree (LineAlike cr Behind) (Line.moved f) ((scanColumn s).map lineOf id)
      ((scanColumn s').map lineOf id) := by
  have hname := readIdentifier_agree h
  have htype := readType_agree (skipInline_alike hname.rest)
  have hsettings := readOptionalSettings_agree (skipInline_alike htype.rest)
  unfold scanColumn
  dsimp only
  rw [hname.value, htype.value, hsettings.value]
  dsimp only [id]
  split
  · rw [hf _ _ hname.rest]
    exact ⟨rfl, hf _ _ hname.rest ▸ hname.rest⟩
  · split
    · rw [hf _ _ htype.rest]
      exact ⟨rfl, hf _ _ htype.rest ▸ htype.rest⟩
    · rw [hf _ _ htype.rest]
      exact ⟨rfl, hf _ _ htype.rest ▸ hsettings.rest⟩

/-- A line of a reference statement is read in the same way, at another place. -/
theorem scanRefLine_agree :
    Agree (LineAlike cr Behind) (RefLine.moved f) (scanRefLine s) (scanRefLine s') := by
  have hi := skipInline_alike h
  obtain ⟨hvalue, hrest⟩ := readEndpoint_agree hi
  unfold scanRefLine
  generalize readEndpoint (skipInline s) = q at hvalue hrest ⊢
  generalize readEndpoint (skipInline s') = q' at hvalue hrest ⊢
  obtain ⟨v, r⟩ := q
  obtain ⟨v', r'⟩ := q'
  obtain rfl : v = v' := hvalue
  have hfault : ∀ {x : Cause} {t t' : List Char}, LineAlike cr Behind t t' →
      Agree (LineAlike cr Behind) (RefLine.moved f) (.fault ⟨x, t⟩, t) (.fault ⟨x, t'⟩, t') := by
    intro x t t' ht
    refine ⟨?_, ht⟩
    rw [hf _ _ ht]
    rfl
  cases v with
  | composite => exact ⟨rfl, hrest⟩
  | malformed => exact hfault hrest
  | named source =>
    have hblank := skipInline_alike hrest
    have hsymbol := readSymbol?_agree hblank
    dsimp only
    generalize readSymbol? (skipInline r) = o at hsymbol ⊢
    generalize readSymbol? (skipInline r') = o' at hsymbol ⊢
    cases hsymbol with
    | none => exact hfault hblank
    | @some p p' hp =>
      obtain ⟨k, t⟩ := p
      obtain ⟨k', t'⟩ := p'
      obtain ⟨rfl, ht⟩ := hp
      obtain ⟨hvalue, hrest⟩ := readEndpoint_agree (skipInline_alike ht)
      dsimp only
      generalize readEndpoint (skipInline t) = q at hvalue hrest ⊢
      generalize readEndpoint (skipInline t') = q' at hvalue hrest ⊢
      obtain ⟨w, u⟩ := q
      obtain ⟨w', u'⟩ := q'
      obtain rfl : w = w' := hvalue
      cases w with
      | composite => exact ⟨rfl, hrest⟩
      | malformed => exact hfault hrest
      | named target => exact ⟨rfl, hrest⟩

end Places

/-! ## The end of the line -/

/-- Behind the line stands what the relation is about. -/
theorem skipLine_behind : Behind (skipLine s) (skipLine s') := by
  induction h with
  | ended h => exact h
  | newline h => exact h
  | carriage hcr h => exact h
  | @char c r r' hc h ih =>
    have hskip : ∀ t, skipLine (c :: t) = skipLine t := by
      intro t; simp [skipLine, hc.ne_newline]
    rw [hskip, hskip]
    exact ih

/-- Comments start alike. Where they end is given for each kind. -/
theorem comment?_rel {Like : List Char → List Char → Prop}
    (hline : ∀ r r', LineAlike cr Behind r r' → Like (skipLine r) (skipLine r'))
    (hblock : ∀ r r', s = '/' :: '*' :: r → LineAlike cr Behind r r' →
      Like (skipComment r) (skipComment r')) :
    Option.Rel Like (comment? s) (comment? s') := by
  cases h with
  | ended => exact .none
  | newline h => exact .none
  | carriage hcr h => exact .none
  | @char c r r' hc h =>
    by_cases hhash : c = '#'
    · subst hhash; exact .some (hline _ _ h)
    · by_cases hslash : c = '/'
      · subst hslash
        cases h with
        | ended => exact .none
        | newline h => exact .none
        | carriage hcr h => exact .none
        | @char d t t' hd h =>
          by_cases hs : d = '/'
          · subst hs; exact .some (hline _ _ h)
          · by_cases ha : d = '*'
            · subst ha; exact .some (hblock _ _ rfl h)
            · have hnone : ∀ u, comment? ('/' :: d :: u) = none := by
                intro u; simp [comment?, hs, ha]
              rw [hnone, hnone]
              exact .none
      · have hnone : ∀ u, comment? (c :: u) = none := by
          intro u; simp [comment?, hhash, hslash]
        rw [hnone, hnone]
        exact .none

omit h in
/-- A block of indexes or of a note opens on the line. -/
def OpensBlock (s : List Char) : Prop :=
  (lower (readWord s).1 = "indexes" ∨ lower (readWord s).1 = "note") ∧
    (skipInline (readWord s).2).head? = some '{'

section Lines

variable {f : List Char → List Char} {Like : List Char → List Char → Prop}
  (hdrop : ∀ r r', LineAlike cr Behind r r' → Like (dropLine r) (dropLine r'))
include hdrop

/-- A word introduces the same line, given what stands behind it. -/
theorem wordLine?_agree (word : String) {t t' : List Char}
    (hblock : word = "indexes" ∨ word = "note" → s.head? = some '{' →
      Like (skipBlock t) (skipBlock t')) :
    Option.Rel (Agree Like (Line.moved f)) (wordLine? word t s) (wordLine? word t' s') := by
  by_cases hw : word = "indexes" ∨ word = "note"
  · have hnone : ∀ {c : Char} {u : List Char} (v : List Char), c ≠ '{' → c ≠ ':' →
        wordLine? word v (c :: u) = none := by
      intro c u v hbrace hcolon
      simp [wordLine?, hw, hbrace, hcolon]
    cases h with
    | ended => simp only [wordLine?, hw, if_true]; exact .none
    | newline => rw [hnone _ (by decide) (by decide), hnone _ (by decide) (by decide)]; exact .none
    | carriage => rw [hnone _ (by decide) (by decide), hnone _ (by decide) (by decide)]; exact .none
    | @char c r r' hc h =>
      by_cases hbrace : c = '{'
      · subst hbrace
        simp only [wordLine?, hw, if_true]
        exact .some ⟨rfl, hblock hw rfl⟩
      · by_cases hcolon : c = ':'
        · subst hcolon
          have hvalue := readValue_agree (skipInline_alike h)
          simp only [wordLine?, hw, if_true]
          split
          · exact .some ⟨congrArg (fun v => Line.note (String.ofList v)) hvalue.value,
              hdrop _ _ hvalue.rest⟩
          · exact .none
        · rw [hnone _ hbrace hcolon, hnone _ hbrace hcolon]
          exact .none
  · simp only [wordLine?, hw, if_false]
    exact .none

variable (hf : ∀ r r', LineAlike cr Behind r r' → r = f r')
include hf

omit h in
/-- A line of a table's body is read in the same way, at another place. What it leaves depends on
where lines and blocks end. -/
theorem readLine_agree {c : Char} {r r' : List Char} (hc : LineChar cr c r)
    (h : LineAlike cr Behind r r')
    (hskip : ∀ r r', LineAlike cr Behind r r' → Like (skipLine r) (skipLine r'))
    (hblock : OpensBlock (c :: r) → Like (skipBlock (c :: r)) (skipBlock (c :: r'))) :
    Agree Like (Line.moved f) (readLine (c :: r)) (readLine (c :: r')) := by
  by_cases hslash : c = '/'
  · subst hslash; exact ⟨rfl, hskip r r' h⟩
  have hall : LineAlike cr Behind (c :: r) (c :: r') := .char hc h
  have hcolumn : Agree Like (Line.moved f) (columnLine (c :: r)) (columnLine (c :: r')) := by
    have hscan := scanColumn_agree hall hf
    rw [columnLine_eq, columnLine_eq]
    exact ⟨hscan.value, hdrop _ _ hscan.rest⟩
  have hword := readWord_agree hall
  have hline := wordLine?_agree (skipInline_alike hword.rest) hdrop (f := f)
    (lower (readWord (c :: r)).1) fun hw hbrace => hblock ⟨hw, hbrace⟩
  rw [readLine_of_ne_slash hslash, readLine_of_ne_slash hslash,
    ← show (readWord (c :: r)).1 = (readWord (c :: r')).1 from hword.value]
  generalize wordLine? _ (c :: r) _ = o at hline ⊢
  generalize wordLine? _ (c :: r') _ = o' at hline ⊢
  cases hline with
  | none => exact hcolumn
  | some hp => exact hp

end Lines

end Dbml
