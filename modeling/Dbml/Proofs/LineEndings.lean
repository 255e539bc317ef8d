import Dbml.Cli.Run
import Dbml.Proofs.Alike
import Dbml.Proofs.Places

/-!
# Line endings

A line may end with a newline alone or with a carriage return in front of it. A carriage return is
a blank between tokens, ends a type and is trimmed off a value, so a text means the same either way,
and what is wrong with it is reported on the same lines.

Two things could tell: a quoted token keeps the carriage return of a line that it goes on behind or
is not closed on, and so does a parameter of a type that its line never closes. So the texts here
have no quotes, and on each line their parentheses are balanced.

Results:
* `readItem_crlf`: a statement is read in the same way from both texts;
* `read_crlf`: both texts hold the same statements, at other places;
* `parse_crlf`: both texts give the same schema and the same diagnostics, columns apart.
-/
namespace Dbml

open Text Outline

/-! ## The two texts -/

/-- The text with a carriage return in front of every newline. -/
def crlf (s : List Char) : List Char := s.flatMap fun c => if c = '\n' then ['\r', '\n'] else [c]

/-- The text without its carriage returns. -/
def withoutCarriages (s : List Char) : List Char := s.filter (· != '\r')

/-- On every line the parentheses are balanced and none closes before it opens, given how many are
open. -/
def balanced : Nat → List Char → Bool
  | depth, [] => depth == 0
  | depth, c :: r =>
    if c = '\n' then depth == 0 && balanced 0 r
    else if c = '(' then balanced (depth + 1) r
    else if c = ')' then depth != 0 && balanced (depth - 1) r
    else balanced depth r

/-- A text that means the same with carriage returns in front of its newlines. -/
structure EndsFreely (s : List Char) : Prop where
  no_carriage : '\r' ∉ s
  no_quote : ∀ c ∈ s, isQuote c = false
  balanced : balanced 0 s = true

theorem crlf_newline (s : List Char) : crlf ('\n' :: s) = '\r' :: '\n' :: crlf s := rfl

theorem crlf_cons {c : Char} (hc : c ≠ '\n') (s : List Char) : crlf (c :: s) = c :: crlf s := by
  simp [crlf, hc]

theorem withoutCarriages_cons {c : Char} (hc : c ≠ '\r') (s : List Char) :
    withoutCarriages (c :: s) = c :: withoutCarriages s :=
  List.filter_cons_of_pos (by simpa using hc)

theorem withoutCarriages_carriage (s : List Char) :
    withoutCarriages ('\r' :: s) = withoutCarriages s := List.filter_cons_of_neg (by decide)

theorem withoutCarriages_crlf {s : List Char} (h : '\r' ∉ s) : withoutCarriages (crlf s) = s := by
  induction s with
  | nil => rfl
  | cons c s ih =>
    simp only [List.mem_cons, not_or] at h
    by_cases hc : c = '\n'
    · subst hc
      rw [crlf_newline, withoutCarriages_carriage, withoutCarriages_cons (by decide), ih h.2]
    · rw [crlf_cons hc, withoutCarriages_cons (Ne.symm h.1), ih h.2]

/-- An open parenthesis of a balanced text is closed on its line. -/
theorem exists_closes {depth k : Nat} (hk : 0 < k) {s : List Char}
    (h : balanced (depth + k) s = true) : ∃ p t, s = p ++ t ∧ Closes k p := by
  induction s generalizing k with
  | nil => simp [balanced] at h; omega
  | cons c s ih =>
    rw [balanced] at h
    split at h
    · simp at h; omega
    · rename_i hn
      -- What closes the parentheses that are open behind the character closes them with it.
      have hcons : ∀ j, depthAfter k c = j → 0 < j → balanced (depth + j) s = true →
          ∃ p t, c :: s = p ++ t ∧ Closes k p := by
        intro j hj hpos hb
        obtain ⟨p, t, rfl, hp⟩ := ih hpos hb
        exact ⟨c :: p, t, rfl, (closes_cons hk).2 ⟨hn, hj ▸ hp⟩⟩
      split at h
      · rename_i ho
        exact hcons (k + 1) (by simp [depthAfter, ho]) (Nat.succ_pos k) (by rwa [← Nat.add_assoc])
      · rename_i ho
        split at h
        · rename_i hc
          have hd : depthAfter k c = k - 1 := by simp [depthAfter, hc]
          simp only [Bool.and_eq_true] at h
          by_cases hone : k = 1
          · refine ⟨[c], s, rfl, (closes_cons hk).2 ⟨hn, ?_⟩⟩
            rw [hd, hone]
            exact closes_zero.2 rfl
          · exact hcons (k - 1) hd (by omega) (by rw [← Nat.add_sub_assoc hk]; exact h.2)
        · rename_i hc
          exact hcons k (by simp [depthAfter, ho, hc]) hk h

/-! ## Texts that are alike -/

/-- What stands behind a line of both texts. -/
structure CrlfBehind (r r' : List Char) : Prop extends EndsFreely r where
  eq : r' = crlf r

/-- The same place in both texts. -/
def CrlfAlike : List Char → List Char → Prop := LineAlike True CrlfBehind

theorem crlfAlike_crlf {depth : Nat} {s : List Char} (hr : '\r' ∉ s)
    (hq : ∀ c ∈ s, isQuote c = false) (hb : balanced depth s = true) : CrlfAlike s (crlf s) := by
  induction s generalizing depth with
  | nil => exact .ended ⟨⟨hr, hq, rfl⟩, rfl⟩
  | cons c s ih =>
    simp only [List.mem_cons, not_or] at hr
    have hqs : ∀ d ∈ s, isQuote d = false := fun d hd => hq d (List.mem_cons_of_mem c hd)
    have hqc := hq c List.mem_cons_self
    rw [balanced] at hb
    split at hb
    · rename_i hn
      subst hn
      simp only [Bool.and_eq_true] at hb
      exact .carriage trivial ⟨⟨hr.2, hqs, hb.2⟩, rfl⟩
    · rename_i hn
      rw [crlf_cons hn]
      have hchar : (c = '(' → ∃ p t, s = p ++ t ∧ Closes 1 p) → LineChar True c s := fun hclose =>
        { ne_newline := hn
          ne_single := by rintro rfl; exact absurd hqc (by decide)
          no_quote := fun _ => hqc
          ne_carriage := fun _ => Ne.symm hr.1
          closes := fun _ => hclose
          no_brace := fun h => absurd trivial h
          no_comment := fun h => absurd trivial h }
      split at hb
      · exact .char (hchar fun _ => exists_closes Nat.one_pos hb) (ih hr.2 hqs hb)
      · rename_i ho
        split at hb
        · simp only [Bool.and_eq_true] at hb
          exact .char (hchar fun h => absurd h ho) (ih hr.2 hqs hb.2)
        · exact .char (hchar fun h => absurd h ho) (ih hr.2 hqs hb)

theorem CrlfBehind.alike {r r' : List Char} (h : CrlfBehind r r') : CrlfAlike r r' := by
  obtain ⟨⟨hr, hq, hb⟩, rfl⟩ := h
  exact crlfAlike_crlf hr hq hb

/-- The one text is the other without its carriage returns. -/
theorem CrlfAlike.eq {s s' : List Char} (h : CrlfAlike s s') : s = withoutCarriages s' := by
  induction h with
  | ended => rfl
  | newline h =>
    rw [withoutCarriages_cons (by decide), h.eq, withoutCarriages_crlf h.no_carriage]
  | carriage hcr h =>
    rw [withoutCarriages_carriage, withoutCarriages_cons (by decide), h.eq,
      withoutCarriages_crlf h.no_carriage]
  | char hc h ih => rw [withoutCarriages_cons (hc.ne_carriage trivial), ← ih]

/-- What is kept by newlines and by characters holds of both texts. -/
theorem CrlfAlike.induction {motive : List Char → List Char → Prop} (ended : motive [] [])
    (newline : ∀ r r', CrlfAlike r r' → motive r r' → motive ('\n' :: r) ('\n' :: r'))
    (carriage : ∀ r r', motive ('\n' :: r) ('\n' :: r') →
      motive ('\n' :: r) ('\r' :: '\n' :: r'))
    (char : ∀ c r r', LineChar True c r → CrlfAlike r r' → motive r r' →
      motive (c :: r) (c :: r')) {s s' : List Char} (h : CrlfAlike s s') : motive s s' := by
  induction hn : s'.length using Nat.strongRecOn generalizing s s' with
  | _ n ih =>
    subst hn
    cases h with
    | ended => exact ended
    | newline h => exact newline _ _ h.alike (ih _ (Nat.lt_succ_self _) h.alike rfl)
    | @carriage r r' hcr h =>
      have hlt : r'.length < ('\r' :: '\n' :: r').length := by simp only [List.length_cons]; omega
      exact carriage _ _ (newline _ _ h.alike (ih _ hlt h.alike rfl))
    | char hc h => exact char _ _ _ hc h (ih _ (Nat.lt_succ_self _) h rfl)

/-! ## Comments and filler -/

section Filler

variable {s s' : List Char}

theorem skipLine_crlf (h : CrlfAlike s s') : CrlfAlike (skipLine s) (skipLine s') :=
  (skipLine_behind h).alike

theorem skipComment_crlf (h : CrlfAlike s s') : CrlfAlike (skipComment s) (skipComment s') := by
  have hskip : ∀ {c : Char}, c ≠ '*' → ∀ t, skipComment (c :: t) = skipComment t := by
    intro c hc t
    have hp : ['*', '/'].isPrefixOf (c :: t) = false := by
      rw [List.isPrefixOf_cons_cons, beq_false_of_ne hc.symm, Bool.false_and]
    rw [skipComment, breakAt, hp]
    rfl
  refine CrlfAlike.induction (motive := fun s s' => CrlfAlike (skipComment s) (skipComment s'))
    (.ended ⟨⟨by simp, by simp, rfl⟩, rfl⟩) ?_ ?_ ?_ h
  · intro r r' _ ih
    rwa [hskip (by decide), hskip (by decide)]
  · intro r r' ih
    rwa [hskip (c := '\r') (by decide)]
  · intro c r r' hc h ih
    by_cases ha : c = '*'
    · subst ha
      rcases LineAlike.cons_or (k := '/') (by decide) (by decide) h with
        ⟨t, t', rfl, rfl, hr⟩ | ⟨hs, hs'⟩
      · exact hr
      · have hstar : ∀ t : List Char, (∀ u, t ≠ '/' :: u) →
            skipComment ('*' :: t) = skipComment t := by
          intro t ht
          have hp : ['*', '/'].isPrefixOf ('*' :: t) = false := by
            cases t with
            | nil => rfl
            | cons d t =>
              have hd : '/' ≠ d := fun e => ht t (by rw [e])
              rw [List.isPrefixOf_cons_cons, List.isPrefixOf_cons_cons, beq_false_of_ne hd,
                Bool.false_and, Bool.and_false]
          rw [skipComment, breakAt, hp]
          rfl
        rwa [hstar r hs, hstar r' hs']
    · rwa [hskip ha, hskip ha]

theorem comment?_crlf (h : CrlfAlike s s') : Option.Rel CrlfAlike (comment? s) (comment? s') :=
  comment?_rel h (fun _ _ h => skipLine_crlf h) fun _ _ _ h => skipComment_crlf h

theorem fillerPiece?_crlf (s s' : List Char) (h : CrlfAlike s s') :
    SkipsAlike CrlfAlike fillerPiece? s s' := by
  cases h with
  | ended => exact .stop rfl rfl
  | newline h => exact .go rfl rfl h.alike
  | carriage hcr h => exact .stay rfl (.newline h)
  | @char c r r' hc h =>
    cases hb : isInlineSpace c || c == '\n' with
    | true => exact .go (by rw [fillerPiece?, if_pos hb]) (by rw [fillerPiece?, if_pos hb]) h
    | false =>
      have hpiece : ∀ t, fillerPiece? (c :: t) = comment? (c :: t) := by
        intro t; rw [fillerPiece?, hb]; rfl
      have hcomment : Option.Rel CrlfAlike (comment? (c :: r)) (comment? (c :: r')) :=
        comment?_crlf (.char hc h)
      rw [← hpiece, ← hpiece] at hcomment
      exact .of_rel hcomment

theorem skipFiller_crlf (h : CrlfAlike s s') : CrlfAlike (skipFiller s) (skipFiller s') :=
  skipMany_alike fillerPiece?_crlf h

theorem linePiece?_crlf (s s' : List Char) (h : CrlfAlike s s') :
    SkipsAlike CrlfAlike linePiece? s s' := by
  cases h with
  | ended => exact .stop rfl rfl
  | newline h => exact .stop rfl rfl
  | carriage hcr h => exact .stay rfl (.newline h)
  | @char c r r' hc h =>
    by_cases hend : c = '}' ∨ c = '#'
    · rcases hend with rfl | rfl <;> exact .stop rfl rfl
    · obtain ⟨hbrace, hhash⟩ := not_or.1 hend
      by_cases hslash : c = '/'
      · subst hslash
        cases h with
        | ended h => exact .go rfl rfl (.ended h)
        | newline h => exact .go rfl rfl (.newline h)
        | carriage hcr h => exact .go rfl rfl (.carriage hcr h)
        | @char d t t' hd h =>
          by_cases hs : d = '/'
          · subst hs; exact .stop rfl rfl
          · by_cases ha : d = '*'
            · subst ha; exact .go rfl rfl (skipComment_crlf h)
            · have hpiece : ∀ u, linePiece? ('/' :: d :: u) = some (d :: u) := by
                intro u; simp [linePiece?, hs, ha]
              exact .go (hpiece t) (hpiece t') (.char hd h)
      · have hpiece : ∀ u, linePiece? (c :: u) = some u := by
          intro u; simp [linePiece?, hc.ne_newline, hslash]
        exact .go (hpiece r) (hpiece r') h

theorem dropLine_crlf (h : CrlfAlike s s') : CrlfAlike (dropLine s) (dropLine s') := by
  have hpieces : CrlfAlike (skipMany linePiece? linePiece?_skips s)
      (skipMany linePiece? linePiece?_skips s') := skipMany_alike linePiece?_crlf h
  have hskip := skipLine_crlf hpieces
  unfold dropLine
  generalize skipMany linePiece? linePiece?_skips s = t at hpieces hskip ⊢
  generalize skipMany linePiece? linePiece?_skips s' = t' at hpieces hskip ⊢
  rcases LineAlike.cons_or (k := '}') (by decide) (by decide) hpieces with
    ⟨r, r', rfl, rfl, -⟩ | ⟨ht, ht'⟩
  · exact hpieces
  · split
    · exact absurd rfl (ht _)
    · exact hskip

/-! ## Blocks -/

theorem headerPiece?_crlf (s s' : List Char) (h : CrlfAlike s s') :
    SkipsAlike CrlfAlike headerPiece? s s' := by
  cases h with
  | ended => exact .stop rfl rfl
  | newline h => exact .stop rfl rfl
  | carriage hcr h => exact .stay rfl (.newline h)
  | @char c r r' hc h =>
    cases hend : c == '{' || c == '\n' with
    | true => exact .stop (by rw [headerPiece?, if_pos hend]) (by rw [headerPiece?, if_pos hend])
    | false =>
      have hq := hc.no_quote trivial
      exact .go (by simp [headerPiece?, hend, hq]) (by simp [headerPiece?, hend, hq]) h

theorem bodyPiece?_crlf (s s' : List Char) (h : CrlfAlike s s') :
    SkipsAlike CrlfAlike bodyPiece? s s' := by
  cases h with
  | ended => exact .stop rfl rfl
  | newline h => exact .go rfl rfl h.alike
  | carriage hcr h => exact .stay rfl (.newline h)
  | @char c r r' hc h =>
    have hq := hc.no_quote trivial
    cases hend : c == '{' || c == '}' with
    | true => exact .stop (by simp [bodyPiece?, hend, hq]) (by simp [bodyPiece?, hend, hq])
    | false =>
      have hpiece : ∀ t, bodyPiece? (c :: t) = some ((comment? (c :: t)).getD t) := by
        intro t; simp [bodyPiece?, hend, hq]
      have hcomment : Option.Rel CrlfAlike (comment? (c :: r)) (comment? (c :: r')) :=
        comment?_crlf (.char hc h)
      refine .go (hpiece r) (hpiece r') ?_
      generalize comment? (c :: r) = o at hcomment ⊢
      generalize comment? (c :: r') = o' at hcomment ⊢
      cases hcomment with
      | none => exact h
      | some h => exact h

theorem skipBody_crlf (depth : Nat) (h : CrlfAlike s s') :
    CrlfAlike (skipBody depth s) (skipBody depth s') := by
  induction hn : s'.length using Nat.strongRecOn generalizing depth s s' with
  | _ n ih =>
    have hbrace : CrlfAlike (skipToBrace s) (skipToBrace s') := skipMany_alike bodyPiece?_crlf h
    have hstop : bodyPiece? (skipToBrace s') = none := skipMany_stops s'
    have hlen := (skipToBrace_suffix s').length_le
    rw [skipBody, skipBody]
    generalize skipToBrace s = t at hbrace ⊢
    generalize skipToBrace s' = t' at hbrace hstop hlen ⊢
    cases hbrace with
    | ended h => exact .ended h
    | newline h => cases hstop
    | carriage hcr h => cases hstop
    | @char c r r' hc h =>
      have hrest : ∀ d, CrlfAlike (skipBody d r) (skipBody d r') := fun d =>
        ih r'.length (by simp only [List.length_cons] at hlen; omega) d h rfl
      dsimp only
      split
      · exact hrest (depth + 1)
      · cases depth with
        | zero => exact h
        | succ outer => exact hrest outer

/-- The text at the opening brace of a block, given the text behind its header on the same line. -/
def atBrace (s : List Char) : List Char :=
  match s with
  | '\n' :: _ => skipFiller s
  | _ => s

theorem atBrace_crlf (h : CrlfAlike s s') (hstop : headerPiece? s' = none) :
    CrlfAlike (atBrace s) (atBrace s') := by
  cases h with
  | ended h => exact .ended h
  | newline h => exact skipFiller_crlf (.newline h)
  | carriage hcr h => cases hstop
  | @char c r r' hc h =>
    have hsame : ∀ t, atBrace (c :: t) = c :: t := by intro t; simp [atBrace, hc.ne_newline]
    rw [hsame, hsame]
    exact .char hc h

theorem skipBlock_of_brace {t : List Char}
    (h : atBrace (skipMany headerPiece? headerPiece?_skips s) = '{' :: t) :
    skipBlock s = skipBody 0 t := by
  unfold skipBlock
  dsimp only
  split
  · rename_i e; rw [(List.cons.inj (h.symm.trans e)).2]
  · rename_i hno; exact absurd h (hno t)

theorem skipBlock_of_ne (h : ∀ t, atBrace (skipMany headerPiece? headerPiece?_skips s) ≠ '{' :: t) :
    skipBlock s = atBrace (skipMany headerPiece? headerPiece?_skips s) := by
  unfold skipBlock
  dsimp only
  split
  · rename_i t e; exact absurd e (h t)
  · rfl

theorem skipBlock_crlf (h : CrlfAlike s s') : CrlfAlike (skipBlock s) (skipBlock s') := by
  have hheader : CrlfAlike (skipMany headerPiece? headerPiece?_skips s)
      (skipMany headerPiece? headerPiece?_skips s') := skipMany_alike headerPiece?_crlf h
  have hbrace := atBrace_crlf hheader (skipMany_stops s')
  rcases LineAlike.cons_or (k := '{') (by decide) (by decide) hbrace with
    ⟨r, r', hr, hr', h⟩ | ⟨ht, ht'⟩
  · rw [skipBlock_of_brace hr, skipBlock_of_brace hr']
    exact skipBody_crlf 0 h
  · rw [skipBlock_of_ne ht, skipBlock_of_ne ht']
    exact hbrace

/-! ## Keywords -/

theorem wordEnds_crlf (h : CrlfAlike s s') : wordEnds s = wordEnds s' := by
  cases h <;> rfl

/-- Whether a character, in lower case, ends no line. -/
def staysOnLine (c : Char) : Bool := c.toLower != '\n' && c.toLower != '\r'

theorem dropFolded?_crlf {k : List Char} (hk : k.all staysOnLine = true) (h : CrlfAlike s s') :
    Option.Rel CrlfAlike (dropFolded? k s) (dropFolded? k s') := by
  induction k generalizing s s' with
  | nil => exact .some h
  | cons d k ih =>
    rw [List.all_cons, Bool.and_eq_true] at hk
    obtain ⟨hd, hk⟩ := hk
    simp only [staysOnLine, Bool.and_eq_true, bne_iff_ne] at hd
    have hn : ('\n'.toLower == d.toLower) = false := beq_false_of_ne hd.1.symm
    have hr : ('\r'.toLower == d.toLower) = false := beq_false_of_ne hd.2.symm
    cases h with
    | ended => exact .none
    | newline h => simp only [dropFolded?, hn]; exact .none
    | carriage hcr h => simp only [dropFolded?, hn, hr]; exact .none
    | @char c r r' hc h =>
      simp only [dropFolded?]
      split
      · exact ih hk h
      · exact .none

theorem keyword?_crlf {k : String} (hk : k.toList.all staysOnLine = true) (h : CrlfAlike s s') :
    Option.Rel CrlfAlike (keyword? k s) (keyword? k s') := by
  have hdrop := dropFolded?_crlf hk h
  rw [keyword?, keyword?]
  generalize dropFolded? k.toList s = o at hdrop ⊢
  generalize dropFolded? k.toList s' = o' at hdrop ⊢
  cases hdrop with
  | none => exact .none
  | some h =>
    rw [Option.filter_some, Option.filter_some, wordEnds_crlf h]
    split
    · exact .some h
    · exact .none

theorem aliasWord?_crlf (h : CrlfAlike s s') :
    Option.Rel CrlfAlike (aliasWord? s) (aliasWord? s') := by
  have hnone : ∀ {c d : Char} (u : List Char), c ≠ 'a' ∨ d ≠ 's' →
      aliasWord? (c :: d :: u) = none := by
    intro c d u hcd
    rcases hcd with hc | hd
    · simp [aliasWord?, hc]
    · simp [aliasWord?, hd]
  cases h with
  | ended => exact .none
  | newline h => exact .none
  | carriage hcr h => rw [hnone _ (.inl (by decide))]; exact .none
  | @char c r r' hc h =>
    cases h with
    | ended => simp only [aliasWord?]; exact .none
    | newline h => rw [hnone _ (.inr (by decide)), hnone _ (.inr (by decide))]; exact .none
    | carriage hcr h => rw [hnone _ (.inr (by decide)), hnone _ (.inr (by decide))]; exact .none
    | @char d t t' hd h =>
      by_cases has : c = 'a' ∧ d = 's'
      · obtain ⟨rfl, rfl⟩ := has
        simp only [aliasWord?, wordEnds_crlf h]
        split
        · exact .some h
        · exact .none
      · have hne : c ≠ 'a' ∨ d ≠ 's' := by
          by_cases hc : c = 'a'
          · exact .inr fun hd => has ⟨hc, hd⟩
          · exact .inl hc
        rw [hnone t hne, hnone t' hne]
        exact .none

end Filler

namespace Outline

variable {s s' : List Char}

/-! ## The header of a table -/

theorem readTableSettingOf_crlf (word : String) (h : CrlfAlike s s') :
    Agree CrlfAlike id (readTableSettingOf word s) (readTableSettingOf word s') := by
  have hother : Agree CrlfAlike id (TableSetting.other, skipSetting s)
      (TableSetting.other, skipSetting s') := ⟨rfl, skipSetting_alike h⟩
  have hvalue := colonValue?_agree h
  unfold readTableSettingOf
  generalize colonValue? s = o at hvalue ⊢
  generalize colonValue? s' = o' at hvalue ⊢
  cases hvalue with
  | none => exact hother
  | some hp =>
    dsimp only
    split
    · exact ⟨congrArg TableSetting.color hp.value, hp.rest⟩
    · split
      · exact ⟨congrArg TableSetting.note hp.value, hp.rest⟩
      · exact hother

theorem tableSetting?_crlf (s s' : List Char) (h : CrlfAlike s s') :
    Option.Rel (Agree CrlfAlike id) (tableSetting? s) (tableSetting? s') := by
  have hsep := skipSeparators_alike h
  unfold tableSetting?
  generalize skipSeparators s = t at hsep ⊢
  generalize ht' : skipSeparators s' = t' at hsep ⊢
  cases hsep with
  | ended => exact .none
  | newline h => exact .none
  | carriage hcr h => exact absurd (skipSeparators_head ht').1 (by decide)
  | @char c r r' hc h =>
    dsimp only
    split
    · exact .none
    · have hword := readWord_agree (.char hc h : CrlfAlike (c :: r) (c :: r'))
      have hsetting := readTableSettingOf_crlf (lower (readWord (c :: r')).1)
        (skipInline_alike hword.rest)
      rw [readTableSetting, readTableSetting]
      dsimp only
      rw [show (readWord (c :: r)).1 = (readWord (c :: r')).1 from hword.value]
      exact .some hsetting

theorem readTableSettings_crlf (h : CrlfAlike s s') :
    Agree CrlfAlike id (readTableSettings s) (readTableSettings s') := by
  rcases LineAlike.cons_or (k := '[') (by decide) (by decide) h with
    ⟨r, r', rfl, rfl, hr⟩ | ⟨hs, hs'⟩
  · have hmany := many_agree (p := tableSetting?_progresses) tableSetting?_crlf hr
    refine ⟨?_, skipFiller_crlf (dropChar_alike (skipSeparators_alike hmany.rest) ']' (by decide)
      (by decide))⟩
    simpa [readTableSettings] using hmany.value
  · have hnone : ∀ t : List Char, (∀ r, t ≠ '[' :: r) → readTableSettings t = ([], t) := by
      intro t ht
      unfold readTableSettings
      split
      · exact absurd rfl (ht _)
      · rfl
    rw [hnone s hs, hnone s' hs']
    exact ⟨rfl, h⟩

/-- Two results of a reader that may fail: both fail for the same cause at the same place, or they
agree. -/
inductive Agrees {α : Type} :
    Except Fault (α × List Char) → Except Fault (α × List Char) → Prop
  | error {cause : Cause} {r r' : List Char} (h : CrlfAlike r r') :
    Agrees (.error ⟨cause, r⟩) (.error ⟨cause, r'⟩)
  | ok {p p' : α × List Char} (h : Agree CrlfAlike id p p') : Agrees (.ok p) (.ok p')

theorem readAlias_crlf (table : List Char) (h : CrlfAlike s s') :
    Agrees (readAlias table s) (readAlias table s') := by
  have hword := aliasWord?_crlf h
  unfold readAlias
  generalize aliasWord? s = o at hword ⊢
  generalize aliasWord? s' = o' at hword ⊢
  cases hword with
  | none => exact .ok ⟨rfl, h⟩
  | some h =>
    have hname := readIdentifier_agree (skipFiller_crlf h)
    dsimp only
    rw [show (readIdentifier _).1 = (readIdentifier _).1 from hname.value]
    split
    · exact .error hname.rest
    · exact .ok ⟨rfl, skipFiller_crlf hname.rest⟩

theorem readHeader_crlf (h : CrlfAlike s s') : Agrees (readHeader s) (readHeader s') := by
  have hname := readIdentifier_agree (skipFiller_crlf h)
  have halias := readAlias_crlf (readIdentifier (skipFiller s')).1 (skipFiller_crlf hname.rest)
  unfold readHeader
  dsimp only
  rw [show (readIdentifier (skipFiller s)).1 = (readIdentifier (skipFiller s')).1 from hname.value]
  split
  · exact .error hname.rest
  · generalize readAlias _ (skipFiller (readIdentifier (skipFiller s)).2) = o at halias ⊢
    generalize readAlias _ (skipFiller (readIdentifier (skipFiller s')).2) = o' at halias ⊢
    cases halias with
    | error h => exact .error h
    | @ok p p' hp =>
      obtain ⟨a, t⟩ := p
      obtain ⟨a', t'⟩ := p'
      obtain ⟨rfl, ht⟩ := hp
      obtain ⟨hvalue, hrest⟩ := readTableSettings_crlf ht
      dsimp only
      generalize readTableSettings t = q at hvalue hrest ⊢
      generalize readTableSettings t' = q' at hvalue hrest ⊢
      obtain ⟨settings, u⟩ := q
      obtain ⟨settings', u'⟩ := q'
      obtain rfl : settings = settings' := hvalue
      rcases LineAlike.cons_or (k := '{') (by decide) (by decide) hrest with
        ⟨r, r', rfl, rfl, h⟩ | ⟨hu, hu'⟩
      · exact .ok ⟨rfl, h⟩
      · split
        · rename_i e; exact absurd (Prod.mk.inj e).2 (hu _)
        · rename_i e
          obtain ⟨rfl, rfl⟩ := Prod.mk.inj e
          exact .error hrest

/-! ## The body of a table -/

/-- Behind its filler both texts are over, or they go on with the same character. -/
theorem skipFiller_cases (h : CrlfAlike s s') :
    (skipFiller s = [] ∧ skipFiller s' = []) ∨
      ∃ c r r', skipFiller s = c :: r ∧ skipFiller s' = c :: r' ∧ LineChar True c r ∧
        CrlfAlike r r' := by
  have hfiller := skipFiller_crlf h
  have hstop := fillerPiece?_skipFiller s'
  generalize skipFiller s = t at hfiller ⊢
  generalize skipFiller s' = t' at hfiller hstop ⊢
  cases hfiller with
  | ended => exact .inl ⟨rfl, rfl⟩
  | newline => cases hstop
  | carriage => cases hstop
  | char hc h => exact .inr ⟨_, _, _, rfl, rfl, hc, h⟩

theorem line?_crlf (s s' : List Char) (h : CrlfAlike s s') :
    Option.Rel (Agree CrlfAlike (Line.moved withoutCarriages)) (line? s) (line? s') := by
  rcases skipFiller_cases h with ⟨hs, hs'⟩ | ⟨c, r, r', hs, hs', hc, hr⟩
  · rw [line?, line?, hs, hs']; exact .none
  · by_cases hbrace : c = '}'
    · subst hbrace; rw [line?, line?, hs, hs']; exact .none
    · rw [Canonical.line?_of_skipFiller hs hbrace, Canonical.line?_of_skipFiller hs' hbrace]
      have hline : Agree CrlfAlike (Line.moved withoutCarriages) (readLine (c :: r))
          (readLine (c :: r')) :=
        readLine_agree (fun _ _ h => dropLine_crlf h) (fun _ _ h => CrlfAlike.eq h) hc hr
          (fun _ _ h => skipLine_crlf h) fun _ => skipBlock_crlf (.char hc hr)
      exact .some hline

theorem readBody_crlf (header : TableHeader) (h : CrlfAlike s s') :
    Agree CrlfAlike (TableItem.moved withoutCarriages) (readBody header s)
      (readBody header s') := by
  obtain ⟨hlines, hrest⟩ := many_agree (p := line?_progresses) line?_crlf h
  have hend := skipFiller_crlf hrest
  have hdraft : (⟨header, s, (many line? line?_progresses s).1⟩ : TableDraft) =
      TableDraft.moved withoutCarriages ⟨header, s', (many line? line?_progresses s').1⟩ := by
    rw [hlines, h.eq]; rfl
  unfold readBody
  dsimp only
  rw [hdraft]
  generalize skipFiller (many line? line?_progresses s).2 = t at hend ⊢
  generalize skipFiller (many line? line?_progresses s').2 = t' at hend ⊢
  rcases LineAlike.cons_or (k := '}') (by decide) (by decide) hend with
    ⟨r, r', rfl, rfl, hr⟩ | ⟨ht, ht'⟩
  · exact ⟨rfl, hr⟩
  · split
    · exact absurd rfl (ht _)
    · refine ⟨?_, hend⟩
      rw [hend.eq]; rfl

theorem readTable_crlf (h : CrlfAlike s s') :
    Agree CrlfAlike (TableItem.moved withoutCarriages) (readTable s) (readTable s') := by
  have hheader := readHeader_crlf h
  unfold readTable
  generalize readHeader s = o at hheader ⊢
  generalize readHeader s' = o' at hheader ⊢
  cases hheader with
  | error h => exact ⟨by rw [h.eq]; rfl, h⟩
  | @ok p p' hp =>
    obtain ⟨header, t⟩ := p
    obtain ⟨header', t'⟩ := p'
    obtain ⟨rfl, ht⟩ := hp
    exact readBody_crlf _ ht

/-! ## Reference statements -/

/-- The name of a reference statement that does not start with what follows a name. -/
theorem readRefName_of_ne (hcolon : ∀ r, s ≠ ':' :: r) (hbrace : ∀ r, s ≠ '{' :: r) :
    readRefName s = (readIdentifier s).map
      (fun n => if n.isEmpty then none else some (String.ofList n)) skipInline := by
  unfold readRefName
  split
  · rfl
  · exact absurd rfl (hcolon _)
  · exact absurd rfl (hbrace _)
  · rfl

theorem readRefName_crlf (h : CrlfAlike s s') :
    Agree CrlfAlike id (readRefName s) (readRefName s') := by
  rcases LineAlike.cons_or (k := ':') (by decide) (by decide) h with
    ⟨r, r', rfl, rfl, -⟩ | ⟨hcolon, hcolon'⟩
  · exact ⟨rfl, h⟩
  rcases LineAlike.cons_or (k := '{') (by decide) (by decide) h with
    ⟨r, r', rfl, rfl, -⟩ | ⟨hbrace, hbrace'⟩
  · exact ⟨rfl, h⟩
  have hname := readIdentifier_agree h
  rw [readRefName_of_ne hcolon hbrace, readRefName_of_ne hcolon' hbrace']
  exact ⟨congrArg (fun n => if n.isEmpty then none else some (String.ofList n)) hname.value,
    skipInline_alike hname.rest⟩

theorem readRefLine_crlf (h : CrlfAlike s s') :
    Agree CrlfAlike (RefLine.moved withoutCarriages) (readRefLine s) (readRefLine s') := by
  have hscan := scanRefLine_agree h fun _ _ h => CrlfAlike.eq h
  exact ⟨hscan.value, dropLine_crlf hscan.rest⟩

theorem blockRefLine?_crlf (s s' : List Char) (h : CrlfAlike s s') :
    Option.Rel (Agree CrlfAlike (RefLine.moved withoutCarriages)) (blockRefLine? s)
      (blockRefLine? s') := by
  unfold blockRefLine?
  rcases skipFiller_cases h with ⟨hs, hs'⟩ | ⟨c, r, r', hs, hs', hc, hr⟩
  · rw [hs, hs']; exact .none
  · rw [hs, hs']
    by_cases hbrace : c = '}'
    · subst hbrace; exact .none
    · simp only; exact .some (readRefLine_crlf (.char hc hr))

theorem readRefs_crlf (h : CrlfAlike s s') :
    Agree CrlfAlike (RefItem.moved withoutCarriages) (readRefs s) (readRefs s') := by
  obtain ⟨hname, hrest⟩ := readRefName_crlf (skipInline_alike h)
  unfold readRefs
  dsimp only
  generalize readRefName (skipInline s) = p at hname hrest ⊢
  generalize readRefName (skipInline s') = p' at hname hrest ⊢
  obtain ⟨name, t⟩ := p
  obtain ⟨name', t'⟩ := p'
  obtain rfl : name = name' := hname
  dsimp only at hrest ⊢
  rcases LineAlike.cons_or (k := ':') (by decide) (by decide) hrest with
    ⟨r, r', rfl, rfl, hr⟩ | ⟨hcolon, hcolon'⟩
  · have hline := readRefLine_crlf hr
    exact ⟨by simp only [hline.value]; rfl, hline.rest⟩
  rcases LineAlike.cons_or (k := '{') (by decide) (by decide) hrest with
    ⟨r, r', rfl, rfl, hr⟩ | ⟨hbrace, hbrace'⟩
  · obtain ⟨hlines, hend⟩ := many_agree (p := blockRefLine?_progresses) blockRefLine?_crlf hr
    have hfiller := skipFiller_crlf hend
    simp only [hlines]
    generalize skipFiller (many blockRefLine? blockRefLine?_progresses r).2 = u at hfiller ⊢
    generalize skipFiller (many blockRefLine? blockRefLine?_progresses r').2 = u' at hfiller ⊢
    rcases LineAlike.cons_or (k := '}') (by decide) (by decide) hfiller with
      ⟨v, v', rfl, rfl, hv⟩ | ⟨hu, hu'⟩
    · exact ⟨rfl, hv⟩
    · split
      · exact absurd rfl (hu _)
      · exact ⟨by rw [hfiller.eq]; rfl, hfiller⟩
  · split
    · exact absurd rfl (hcolon _)
    · exact absurd rfl (hbrace _)
    · exact ⟨by rw [hrest.eq]; rfl, skipLine_crlf hrest⟩

/-! ## Statements -/

theorem skippedWords_crlf (h : CrlfAlike s s') :
    (skippedWords.any fun word => (keyword? word s).isSome) =
      skippedWords.any fun word => (keyword? word s').isSome := by
  have hword : ∀ {word : String}, word.toList.all staysOnLine = true →
      (keyword? word s).isSome = (keyword? word s').isSome := by
    intro word hw
    have hkeyword := keyword?_crlf hw h
    generalize keyword? word s = o at hkeyword ⊢
    generalize keyword? word s' = o' at hkeyword ⊢
    cases hkeyword <;> rfl
  simp only [skippedWords, List.any_cons, List.any_nil]
  rw [hword (by decide), hword (by decide), hword (by decide)]

/-- A statement is read in the same way from both texts. -/
theorem readItem_crlf (h : CrlfAlike s s') :
    Agree CrlfAlike (Item.moved withoutCarriages) (readItem s) (readItem s') := by
  have htable := keyword?_crlf (k := "Table") (by decide) h
  have hrefs := keyword?_crlf (k := "Ref") (by decide) h
  unfold readItem
  rw [skippedWords_crlf h]
  generalize keyword? "Table" s = o at htable ⊢
  generalize keyword? "Table" s' = o' at htable ⊢
  generalize keyword? "Ref" s = q at hrefs ⊢
  generalize keyword? "Ref" s' = q' at hrefs ⊢
  cases htable with
  | some hr =>
    have hread := readTable_crlf hr
    exact ⟨congrArg Item.table hread.value, hread.rest⟩
  | none =>
    cases hrefs with
    | some hr =>
      have hread := readRefs_crlf hr
      exact ⟨congrArg Item.refs hread.value, hread.rest⟩
    | none =>
      dsimp only
      split
      · exact ⟨by rw [h.eq]; rfl, skipBlock_crlf h⟩
      · exact ⟨rfl, skipLine_crlf h⟩

theorem item?_crlf (s s' : List Char) (h : CrlfAlike s s') :
    Option.Rel (Agree CrlfAlike (Item.moved withoutCarriages)) (item? s) (item? s') := by
  unfold item?
  rcases skipFiller_cases h with ⟨hs, hs'⟩ | ⟨c, r, r', hs, hs', hc, hr⟩
  · rw [hs, hs']; exact .none
  · rw [hs, hs']; exact .some (readItem_crlf (.char hc hr))

end Outline

/-! ## Documents -/

/-- Both texts hold the same statements, at other places. -/
theorem read_crlf {s : List Char} (h : EndsFreely s) :
    Outline.read s = (Outline.read (crlf s)).moved withoutCarriages :=
  (many_agree (p := item?_progresses) item?_crlf (CrlfBehind.alike ⟨h, rfl⟩)).value

theorem isBlank_crlf (s : List Char) : (crlf s).all isBlank = s.all isBlank := by
  induction s with
  | nil => rfl
  | cons c s ih =>
    by_cases hc : c = '\n'
    · subst hc
      rw [crlf_newline, List.all_cons, List.all_cons, List.all_cons, ih]
      rfl
    · rw [crlf_cons hc, List.all_cons, List.all_cons, ih]

theorem count_newline_withoutCarriages (s : List Char) :
    (withoutCarriages s).count '\n' = s.count '\n' :=
  List.count_filter (by decide)

/-- Carriage returns do not change the line of a place. -/
theorem locate_withoutCarriages {text rest : List Char} (h : rest <:+ text) :
    (Location.locate (withoutCarriages text) (withoutCarriages rest)).line =
      (Location.locate text rest).line := by
  obtain ⟨p, rfl⟩ := h
  have happend : withoutCarriages (p ++ rest) = withoutCarriages p ++ withoutCarriages rest :=
    List.filter_append ..
  rw [happend, Location.locate_append, Location.locate_append, Location.after_line,
    Location.after_line, count_newline_withoutCarriages]

/-- What is read from the bytes of a text with carriage returns in front of its newlines is the
text without them. -/
theorem normalizeNewlines_crlf {s : List Char} (h : '\r' ∉ s) :
    Cli.normalizeNewlines (crlf s) = s := by
  induction s with
  | nil => rfl
  | cons c s ih =>
    simp only [List.mem_cons, not_or] at h
    by_cases hc : c = '\n'
    · subst hc
      rw [crlf_newline, Cli.normalizeNewlines, ih h.2]
    · rw [crlf_cons hc, Cli.normalizeNewlines_cons (Ne.symm h.1), ih h.2]

/-- The text with a carriage return in front of every newline. -/
def crlfText (text : String) : String := String.ofList (crlf text.toList)

/-- A diagnostic but for its column. -/
def Diagnostic.withoutColumn (d : Diagnostic) : Diagnostic := { d with column := 0 }

/-- What comes of statements at other places, which are the same but for carriage returns, is the
same but for columns. -/
theorem Parsed.ofSupply_moved {σ : Type} {text : List Char} (o : Outline) {s : Supply σ}
    (h : ∀ x ∈ s.faults ++ s.refusal.toList, x.rest <:+ text) :
    (ofSupply (withoutCarriages text) (o.moved withoutCarriages) (s.moved withoutCarriages)).schema =
        (ofSupply text o s).schema ∧
      (ofSupply (withoutCarriages text) (o.moved withoutCarriages)
          (s.moved withoutCarriages)).diagnostics.map Diagnostic.withoutColumn =
        (ofSupply text o s).diagnostics.map Diagnostic.withoutColumn := by
  obtain ⟨faults, ids, refusal, state⟩ := s
  have hfaults : (faults ++ refusal.toList).map (Diagnostic.withoutColumn ∘
        Fault.toDiagnostic (withoutCarriages text) ∘ Fault.moved withoutCarriages) =
      (faults ++ refusal.toList).map (Diagnostic.withoutColumn ∘ Fault.toDiagnostic text) := by
    refine List.map_congr_left fun x hx => ?_
    have hline := locate_withoutCarriages (h x hx)
    simp only [Function.comp_apply, Fault.moved, Fault.toDiagnostic, Diagnostic.errorAt,
      Diagnostic.withoutColumn, hline]
  constructor
  · cases refusal with
    | none => exact congrArg some (o.toSchema_moved withoutCarriages ids)
    | some x => rfl
  · have hmoved : faults.map (Fault.moved withoutCarriages) ++
          (refusal.map (Fault.moved withoutCarriages)).toList =
        (faults ++ refusal.toList).map (Fault.moved withoutCarriages) := by
      cases refusal <;> simp
    simpa only [ofSupply, Supply.moved, hmoved, List.map_map] using hfaults

/-- A text with carriage returns in front of its newlines means the same as without them. Whatever
the source of ids, one that refuses included, both give the same schema and leave it in the same
state, and both have the same diagnostics but for columns. Read from a file, the carriage returns
are gone. -/
theorem parse_crlf {σ : Type} (source : IdSource σ) (st : σ) {text : String}
    (h : EndsFreely text.toList) :
    (parse source st (crlfText text)).schema = (parse source st text).schema ∧
      (parse source st (crlfText text)).diagnostics.map Diagnostic.withoutColumn =
        (parse source st text).diagnostics.map Diagnostic.withoutColumn ∧
      (parseWith source st (crlfText text)).2 = (parseWith source st text).2 ∧
      Cli.decodeText (crlfText text).toUTF8 = .ok text := by
  have hdecode : Cli.decodeText (crlfText text).toUTF8 = .ok text := by
    rw [Cli.decodeText_toUTF8, crlfText, String.toList_ofList,
      normalizeNewlines_crlf h.no_carriage, String.ofList_toList]
  simp only [parse, parseWith_eq, parseChars, crlfText, String.toList_ofList, isBlank_crlf] at hdecode ⊢
  cases hb : text.toList.all isBlank with
  | true => exact ⟨rfl, rfl, rfl, hdecode⟩
  | false =>
    -- Both texts draw the same ids, so what comes of their draws differs in places only.
    have hread := read_crlf h
    have hsupply : source.supply (Outline.read text.toList).events st =
        (source.supply (Outline.read (crlf text.toList)).events st).moved withoutCarriages := by
      rw [hread, Outline.events_moved _ rfl, source.supply_moved]
    have hplaces := (List.pairwise_cons.1 (supply_pairwise source st (crlf text.toList))).1
    have hmoved := Parsed.ofSupply_moved (Outline.read (crlf text.toList)) fun x hx =>
      hplaces x.rest (List.mem_map_of_mem hx)
    rw [withoutCarriages_crlf h.no_carriage, ← hsupply, ← hread] at hmoved
    exact ⟨hmoved.1.symm, hmoved.2.symm, by rw [hsupply]; rfl, hdecode⟩

/-- A text with settings that are not closed, a comment in a value, a line without a type, a block
that is not kept and a relation without its second end. -/
def unevenLines : String :=
  "Table a [headercolor: #fff\n\x7b\n  id dec(10, 2) [pk, default: now()\n  Note: of /* a\n" ++
  " */ b\n  name\n\x7d\nEnum e \x7b\n  on\n\x7d\nRef \x7b\n  a.id > a.id\n  a.id >\n"

theorem parse_crlf_unevenLines :
    EndsFreely unevenLines.toList ∧
      (parse .sequential 1 (crlfText unevenLines)).schema.map
          (fun s => (s.tables.map fun t => (t.note, t.color, t.columns.map Column.type),
            s.relations.map Relation.id)) =
        some ([(some "of /* a", some "#fff", ["dec(10, 2)"])], ["rel_3"]) ∧
      (parse .sequential 1 (crlfText unevenLines)).diagnostics.map Diagnostic.withoutColumn = [
        .errorAt ⟨5, 0⟩ "Expected column name",
        .errorAt ⟨6, 0⟩ "Expected type for column \"name\"",
        .errorAt ⟨13, 0⟩ "Expected relation endpoint",
        .errorAt ⟨14, 0⟩ "Expected \"\x7d\" to close Ref definition"] ∧
      (parseWith .sequential 1 (crlfText unevenLines)).2 = 4 ∧
      Cli.decodeText (crlfText unevenLines).toUTF8 = .ok unevenLines := by
  have hquotes : unevenLines.toList.all (fun c => !isQuote c) = true := by decide +kernel
  have hfree : EndsFreely unevenLines.toList :=
    ⟨by decide +kernel, by simpa using hquotes, by decide +kernel⟩
  obtain ⟨hschema, hdiagnostics, hstate, hdecode⟩ := parse_crlf .sequential 1 hfree
  rw [hschema, hdiagnostics, hstate]
  exact ⟨hfree, by decide +kernel, by decide +kernel, by decide +kernel, hdecode⟩

end Dbml
