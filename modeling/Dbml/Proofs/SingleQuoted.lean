import Dbml.Proofs.Lexeme
import Dbml.Proofs.Progress

/-!
# Tokens in single quotes

Where a token in single quotes ends is decided anew at every newline, by a look-ahead for the next
quote that counts. The look-ahead takes a backslash and a newline for one escape, the reader takes
them for two characters. They still agree on which quotes count, so the decision is the same at
every newline: the token is read up to its first free quote, or else to the end of its first line.

Results:
* `closesLater_iff`: the look-ahead decides by the first free quote;
* `quotedChars_closed`, `quotedChars_unclosed`: what is read up to that quote, and what without it;
* `readQuoted_single`: a token in single quotes is read whole or to the end of its line.
-/
namespace Dbml.Text

/-! ## Free quotes -/

/-- Whether a backslash takes the character at a place of the text as it is. That backslash must
not be taken so itself. -/
def Escaped (s : List Char) : Nat → Prop
  | 0 => False
  | k + 1 => s[k]? = some '\\' ∧ ¬Escaped s k

/-- A single quote that no backslash escapes stands at a place of the text. -/
def FreeQuote (s : List Char) (k : Nat) : Prop := s[k]? = some '\'' ∧ ¬Escaped s k

/-- The first such quote of the text. -/
def FirstFreeQuote (s : List Char) (q : Nat) : Prop := FreeQuote s q ∧ ∀ k < q, ¬FreeQuote s k

/-- The text without the backslashes that stand in front of other characters than newlines. -/
def unescaped : List Char → List Char
  | [] => []
  | ['\\'] => ['\\']
  | '\\' :: c :: r => if c = '\n' then '\\' :: c :: unescaped r else c :: unescaped r
  | c :: r => c :: unescaped r

instance decidableEscaped (s : List Char) : ∀ k, Decidable (Escaped s k)
  | 0 => inferInstanceAs (Decidable False)
  | k + 1 =>
    have := decidableEscaped s k
    inferInstanceAs (Decidable (_ ∧ ¬Escaped s k))

instance (s : List Char) (k : Nat) : Decidable (FreeQuote s k) :=
  inferInstanceAs (Decidable (_ ∧ _))

instance (s : List Char) (q : Nat) : Decidable (FirstFreeQuote s q) :=
  inferInstanceAs (Decidable (_ ∧ ∀ k < q, _))

theorem escaped_cons {c : Char} (hc : c ≠ '\\') (s : List Char) (k : Nat) :
    Escaped (c :: s) (k + 1) ↔ Escaped s k := by
  induction k with
  | zero => simp [Escaped, hc]
  | succ k ih =>
    show (c :: s)[k + 1]? = _ ∧ ¬Escaped (c :: s) (k + 1) ↔ s[k]? = _ ∧ ¬Escaped s k
    rw [ih, List.getElem?_cons_succ]

theorem escaped_backslash (d : Char) (s : List Char) (k : Nat) :
    Escaped ('\\' :: d :: s) (k + 2) ↔ Escaped s k := by
  induction k with
  | zero => simp [Escaped]
  | succ k ih =>
    show ('\\' :: d :: s)[k + 2]? = _ ∧ ¬Escaped ('\\' :: d :: s) (k + 2) ↔
      s[k]? = _ ∧ ¬Escaped s k
    rw [ih, List.getElem?_cons_succ, List.getElem?_cons_succ]

theorem freeQuote_cons {c : Char} (hc : c ≠ '\\') (s : List Char) (k : Nat) :
    FreeQuote (c :: s) (k + 1) ↔ FreeQuote s k := by
  rw [FreeQuote, FreeQuote, escaped_cons hc, List.getElem?_cons_succ]

theorem freeQuote_backslash (d : Char) (s : List Char) (k : Nat) :
    FreeQuote ('\\' :: d :: s) (k + 2) ↔ FreeQuote s k := by
  rw [FreeQuote, FreeQuote, escaped_backslash, List.getElem?_cons_succ, List.getElem?_cons_succ]

namespace FirstFreeQuote

variable {s : List Char} {q : Nat}

theorem lt_length (h : FirstFreeQuote s q) : q < s.length :=
  (List.getElem?_eq_some_iff.1 h.1.1).1

/-- There is one first free quote at most. -/
theorem unique {p : Nat} (hp : FirstFreeQuote s p) (hq : FirstFreeQuote s q) : p = q := by
  have hle : p ≤ q := by
    by_contra h
    exact hp.2 q (by omega) hq.1
  have hge : q ≤ p := by
    by_contra h
    exact hq.2 p (by omega) hp.1
  omega

theorem nil : ¬FirstFreeQuote [] q := by
  intro h
  simpa using h.lt_length

theorem lone_backslash : ¬FirstFreeQuote ['\\'] q := by
  intro h
  have hq : q = 0 := by simpa using h.lt_length
  subst hq
  simpa using h.1.1

theorem quote_iff : FirstFreeQuote ('\'' :: s) q ↔ q = 0 := by
  constructor
  · intro h
    by_contra hq
    exact h.2 0 (by omega) ⟨rfl, id⟩
  · intro h
    subst h
    exact ⟨⟨rfl, id⟩, by simp⟩

/-- In front of a character that is neither a quote nor a backslash, places move by one. -/
theorem cons_iff {c : Char} (hb : c ≠ '\\') (hq : c ≠ '\'') :
    FirstFreeQuote (c :: s) q ↔ ∃ p, q = p + 1 ∧ FirstFreeQuote s p := by
  have hzero : ¬FreeQuote (c :: s) 0 := by simp [FreeQuote, hq]
  constructor
  · intro h
    cases q with
    | zero => exact absurd h.1 hzero
    | succ p =>
      refine ⟨p, rfl, (freeQuote_cons hb s p).1 h.1, ?_⟩
      intro k hk hfree
      exact h.2 (k + 1) (by omega) ((freeQuote_cons hb s k).2 hfree)
  · rintro ⟨p, rfl, h⟩
    refine ⟨(freeQuote_cons hb s p).2 h.1, ?_⟩
    intro k hk hfree
    cases k with
    | zero => exact hzero hfree
    | succ k => exact h.2 k (by omega) ((freeQuote_cons hb s k).1 hfree)

/-- In front of an escape, whatever it escapes, they move by two. -/
theorem backslash_iff (d : Char) :
    FirstFreeQuote ('\\' :: d :: s) q ↔ ∃ p, q = p + 2 ∧ FirstFreeQuote s p := by
  have hzero : ¬FreeQuote ('\\' :: d :: s) 0 := by simp [FreeQuote]
  have hone : ¬FreeQuote ('\\' :: d :: s) 1 := by simp [FreeQuote, Escaped]
  constructor
  · intro h
    match q, h with
    | 0, h => exact absurd h.1 hzero
    | 1, h => exact absurd h.1 hone
    | p + 2, h =>
      refine ⟨p, rfl, (freeQuote_backslash d s p).1 h.1, ?_⟩
      intro k hk hfree
      exact h.2 (k + 2) (by omega) ((freeQuote_backslash d s k).2 hfree)
  · rintro ⟨p, rfl, h⟩
    refine ⟨(freeQuote_backslash d s p).2 h.1, ?_⟩
    intro k hk hfree
    match k, hfree with
    | 0, hfree => exact hzero hfree
    | 1, hfree => exact hone hfree
    | k + 2, hfree => exact h.2 k (by omega) ((freeQuote_backslash d s k).1 hfree)

end FirstFreeQuote

/-- A text starts with a free quote, with an escape or with another character; where nothing is
left to escape, a backslash stands by itself. -/
theorem escapes_induction {motive : List Char → Prop} (nil : motive []) (lone : motive ['\\'])
    (escape : ∀ d r, motive r → motive ('\\' :: d :: r)) (quote : ∀ r, motive ('\'' :: r))
    (char : ∀ c r, c ≠ '\\' → c ≠ '\'' → motive r → motive (c :: r)) (s : List Char) : motive s := by
  induction s using closesLater.induct with
  | case1 => exact nil
  | case2 => exact lone
  | case3 d r ih => exact escape d r ih
  | case4 r => exact quote r
  | case5 c r hlone hescape hquote ih =>
    refine char c r ?_ (fun h => hquote h) ih
    intro h
    cases r with
    | nil => exact hlone h rfl
    | cons d r => exact hescape d r h rfl

/-! ## The look-ahead -/

/-- What stands behind a place of the text ends a value. -/
def EndsValueAt (s : List Char) (q : Nat) : Prop := valueEnds (skipInline (s.drop (q + 1))) = true

instance (s : List Char) (q : Nat) : Decidable (EndsValueAt s q) :=
  inferInstanceAs (Decidable (_ = true))

/-- The look-ahead finds the end of a value where one stands behind the first free quote. -/
theorem closesLater_iff (s : List Char) :
    closesLater s = true ↔ ∃ q, FirstFreeQuote s q ∧ EndsValueAt s q := by
  induction s using escapes_induction with
  | nil => simp [closesLater, FirstFreeQuote.nil]
  | lone => simp [closesLater, FirstFreeQuote.lone_backslash]
  | escape d r ih =>
    rw [closesLater_backslash, List.tail_cons, ih]
    constructor
    · rintro ⟨p, hp, hend⟩
      exact ⟨p + 2, (FirstFreeQuote.backslash_iff d).2 ⟨p, rfl, hp⟩, hend⟩
    · rintro ⟨q, hq, hend⟩
      obtain ⟨p, rfl, hp⟩ := (FirstFreeQuote.backslash_iff d).1 hq
      exact ⟨p, hp, hend⟩
  | quote r =>
    simp only [FirstFreeQuote.quote_iff, exists_eq_left]
    rfl
  | char c r hb hq ih =>
    rw [closesLater_cons hb hq, ih]
    constructor
    · rintro ⟨p, hp, hend⟩
      exact ⟨p + 1, (FirstFreeQuote.cons_iff hb hq).2 ⟨p, rfl, hp⟩, hend⟩
    · rintro ⟨q, hfirst, hend⟩
      obtain ⟨p, rfl, hp⟩ := (FirstFreeQuote.cons_iff hb hq).1 hfirst
      exact ⟨p, hp, hend⟩

/-! ## What is read -/

theorem unescaped_cons {c : Char} (hc : c ≠ '\\') (s : List Char) :
    unescaped (c :: s) = c :: unescaped s := by
  rw [unescaped]
  · exact fun h _ => hc h
  · exact fun _ _ h _ => hc h

theorem quotedChar?_single {c : Char} (hb : c ≠ '\\') (hq : c ≠ '\'') {s : List Char}
    (hn : c = '\n' → closesLater s = true) : quotedChar? '\'' (c :: s) = some (c, s) := by
  by_cases h : c = '\n'
  · simp [quotedChar?, h, hn h]
  · simp [quotedChar?, h, hb, hq]

/-- A backslash in front of a newline is read by itself, and where the newline is read on behind it
both are kept. -/
theorem quotedChars_single_backslash {d : Char} {s : List Char}
    (hn : d = '\n' → closesLater s = true) :
    quotedChars '\'' ('\\' :: d :: s) =
      ((if d = '\n' then ['\\', d] else [d]) ++ (quotedChars '\'' s).1, (quotedChars '\'' s).2) := by
  by_cases h : d = '\n'
  · subst h
    have hback : quotedChar? '\'' ('\\' :: '\n' :: s) = some ('\\', '\n' :: s) := rfl
    have hnewline := quotedChar?_single (by decide) (by decide) hn
    rw [quotedChars_of_some hback, quotedChars_of_some hnewline]
    rfl
  · have hback : quotedChar? '\'' ('\\' :: d :: s) = some (d, s) := by simp [quotedChar?, h]
    rw [quotedChars_of_some hback, if_neg h]
    rfl

/-- A token is read up to its first free quote, unless a newline stands in front of that quote and
no value ends behind it. The induction goes by the look-ahead, so each newline asks it about the
same quote. -/
theorem quotedChars_closed {s : List Char} {q : Nat} (hfirst : FirstFreeQuote s q)
    (h : '\n' ∉ s.take q ∨ EndsValueAt s q) :
    quotedChars '\'' s = (unescaped (s.take q), s.drop q) := by
  induction s using escapes_induction generalizing q with
  | nil => exact absurd hfirst FirstFreeQuote.nil
  | lone => exact absurd hfirst FirstFreeQuote.lone_backslash
  | escape d r ih =>
    obtain ⟨p, rfl, hp⟩ := (FirstFreeQuote.backslash_iff d).1 hfirst
    simp only [List.take_succ_cons, List.mem_cons, not_or] at h
    have hrest := ih hp (h.imp (fun h => h.2.2) id)
    have hn : d = '\n' → closesLater r = true := by
      intro hd
      refine (closesLater_iff r).2 ⟨p, hp, ?_⟩
      rcases h with h | h
      · exact absurd hd.symm h.2.1
      · exact h
    rw [quotedChars_single_backslash hn, hrest]
    simp only [List.take_succ_cons, List.drop_succ_cons, unescaped]
    split <;> rfl
  | quote r =>
    obtain rfl := FirstFreeQuote.quote_iff.1 hfirst
    exact quotedChars_quote '\'' r
  | char c r hb hq ih =>
    obtain ⟨p, rfl, hp⟩ := (FirstFreeQuote.cons_iff hb hq).1 hfirst
    simp only [List.take_succ_cons, List.mem_cons, not_or] at h
    have hrest := ih hp (h.imp (fun h => h.2) id)
    have hn : c = '\n' → closesLater r = true := by
      intro hc
      refine (closesLater_iff r).2 ⟨p, hp, ?_⟩
      rcases h with h | h
      · exact absurd hc.symm h.1
      · exact h
    rw [quotedChars_of_some (quotedChar?_single hb hq hn), hrest]
    simp only [List.take_succ_cons, List.drop_succ_cons, unescaped_cons hb]

/-- Otherwise it is read up to the first newline. -/
theorem quotedChars_unclosed {s : List Char}
    (h : ∀ q, FirstFreeQuote s q → '\n' ∈ s.take q ∧ ¬EndsValueAt s q) :
    quotedChars '\'' s = (unescaped (s.takeWhile (· != '\n')), s.dropWhile (· != '\n')) := by
  have hlook : closesLater s = false := by
    rw [Bool.eq_false_iff]
    intro hcloses
    obtain ⟨q, hq, hend⟩ := (closesLater_iff s).1 hcloses
    exact (h q hq).2 hend
  have hstop : ∀ r, closesLater r = false → quotedChars '\'' ('\n' :: r) = ([], '\n' :: r) := by
    intro r hr
    exact quotedChars_of_none (by simp [quotedChar?, hr])
  induction s using escapes_induction with
  | nil => exact quotedChars_of_none rfl
  | lone =>
    have hone : quotedChar? '\'' ['\\'] = some ('\\', []) := rfl
    rw [quotedChars_of_some hone, quotedChars_of_none rfl]
    rfl
  | escape d r ih =>
    rw [closesLater_backslash, List.tail_cons] at hlook
    by_cases hd : d = '\n'
    · subst hd
      have hback : quotedChar? '\'' ('\\' :: '\n' :: r) = some ('\\', '\n' :: r) := rfl
      rw [quotedChars_of_some hback, hstop r hlook]
      rfl
    · have hrest := ih (fun p hp => ?_) hlook
      · rw [quotedChars_single_backslash (fun h => absurd h hd), hrest]
        simp [hd, unescaped]
      · have hfar := h (p + 2) ((FirstFreeQuote.backslash_iff d).2 ⟨p, rfl, hp⟩)
        refine ⟨?_, hfar.2⟩
        simpa [Ne.symm hd] using hfar.1
  | quote r =>
    have hnow := (h 0 (FirstFreeQuote.quote_iff.2 rfl)).1
    simp at hnow
  | char c r hb hq ih =>
    rw [closesLater_cons hb hq] at hlook
    by_cases hc : c = '\n'
    · subst hc
      rw [hstop r hlook]
      rfl
    · have hrest := ih (fun p hp => ?_) hlook
      · rw [quotedChars_of_some (quotedChar?_single hb hq (fun h => absurd h hc)), hrest]
        simp [hc, unescaped_cons hb]
      · have hfar := h (p + 1) ((FirstFreeQuote.cons_iff hb hq).2 ⟨p, rfl, hp⟩)
        refine ⟨?_, hfar.2⟩
        simpa [Ne.symm hc] using hfar.1

/-- A single quote that starts no triple quote opens a token in single quotes. -/
theorem readQuoted_of_not_triple {s : List Char} (h : ¬['\'', '\'', '\''] <+: '\'' :: s) :
    readQuoted ('\'' :: s) = (quotedChars '\'' s).map id (dropChar '\'') := by
  rw [readQuoted]
  intro r _ hr
  exact h ⟨r, by rw [hr]; rfl⟩

/-- A token in single quotes is read whole or to the end of its line, wherever it stands in a text.
If its first free quote stands on its line, or if what follows that quote ends a value, reading
stops right behind the quote. Otherwise it stops at the first newline, or at the end of a text
without one. In between it stops nowhere, at no other newline in particular. -/
theorem readQuoted_single {text : List Char} {i : Nat} (hopen : text[i]? = some '\'')
    (hone : ¬['\'', '\'', '\''] <+: text.drop i) :
    let s := text.drop (i + 1)
    (∀ q, FirstFreeQuote s q → ('\n' ∉ s.take q ∨ EndsValueAt s q) →
        readQuoted (text.drop i) = (unescaped (s.take q), s.drop (q + 1))) ∧
      ((∀ q, FirstFreeQuote s q → '\n' ∈ s.take q ∧ ¬EndsValueAt s q) →
        readQuoted (text.drop i) =
          (unescaped (s.takeWhile (· != '\n')), s.dropWhile (· != '\n'))) ∧
      ((∃ q, FirstFreeQuote s q ∧ (readQuoted (text.drop i)).2 = s.drop (q + 1)) ∨
        ∃ w, '\n' ∉ w ∧ s = w ++ (readQuoted (text.drop i)).2) := by
  obtain ⟨hi, hget⟩ := List.getElem?_eq_some_iff.1 hopen
  have hdrop : text.drop i = '\'' :: text.drop (i + 1) := by
    rw [List.drop_eq_getElem_cons hi, hget]
  rw [hdrop] at hone ⊢
  generalize text.drop (i + 1) = s at hone ⊢
  intro t
  have hclosed : ∀ q, FirstFreeQuote s q → ('\n' ∉ s.take q ∨ EndsValueAt s q) →
      readQuoted ('\'' :: s) = (unescaped (s.take q), s.drop (q + 1)) := by
    intro q hq h
    have hquote : s.drop q = '\'' :: s.drop (q + 1) := by
      rw [List.drop_eq_getElem_cons hq.lt_length, (List.getElem?_eq_some_iff.1 hq.1.1).2]
    rw [readQuoted_of_not_triple hone, quotedChars_closed hq h, hquote]
    rfl
  have hunclosed : (∀ q, FirstFreeQuote s q → '\n' ∈ s.take q ∧ ¬EndsValueAt s q) →
      readQuoted ('\'' :: s) =
        (unescaped (s.takeWhile (· != '\n')), s.dropWhile (· != '\n')) := by
    intro h
    have hrest : dropChar '\'' (s.dropWhile (· != '\n')) = s.dropWhile (· != '\n') := by
      have hstop := stopsAt_dropWhile (· != '\n') s
      cases hs : s.dropWhile (· != '\n') with
      | nil => rfl
      | cons c r =>
        rw [hs, stopsAt_cons] at hstop
        obtain rfl : c = '\n' := by simpa using hstop
        rfl
    rw [readQuoted_of_not_triple hone, quotedChars_unclosed h, Prod.map, hrest]
    rfl
  refine ⟨hclosed, hunclosed, ?_⟩
  by_cases h : ∃ q, FirstFreeQuote s q ∧ ('\n' ∉ s.take q ∨ EndsValueAt s q)
  · obtain ⟨q, hq, hend⟩ := h
    exact .inl ⟨q, hq, by rw [hclosed q hq hend]⟩
  · have hfar : ∀ q, FirstFreeQuote s q → '\n' ∈ s.take q ∧ ¬EndsValueAt s q := by
      intro q hq
      have hno := not_or.1 fun hend => h ⟨q, hq, hend⟩
      exact ⟨not_not.1 hno.1, hno.2⟩
    refine .inr ⟨s.takeWhile (· != '\n'), ?_, ?_⟩
    · intro hmem
      simpa using List.mem_takeWhile_imp hmem
    · rw [hunclosed hfar]
      exact List.takeWhile_append_dropWhile.symm

/-- A token that goes on behind an escaped newline, and one that is given up at its newline. -/
def twoTokens : List Char := "'it\\'s \\\non', 'no\nend' x".toList

theorem readQuoted_single_twoTokens :
    (twoTokens[0]? = some '\'' ∧ ¬['\'', '\'', '\''] <+: twoTokens.drop 0 ∧
      readQuoted (twoTokens.drop 0) = ("it's \\\non".toList, ", 'no\nend' x".toList)) ∧
      twoTokens[14]? = some '\'' ∧ ¬['\'', '\'', '\''] <+: twoTokens.drop 14 ∧
      readQuoted (twoTokens.drop 14) = ("no".toList, "\nend' x".toList) := by
  have hfirst : twoTokens[0]? = some '\'' ∧ ¬['\'', '\'', '\''] <+: twoTokens.drop 0 := by decide
  have hsecond : twoTokens[14]? = some '\'' ∧ ¬['\'', '\'', '\''] <+: twoTokens.drop 14 := by decide
  have hclosed := (readQuoted_single hfirst.1 hfirst.2).1 10 (by decide) (by decide)
  have hunclosed := (readQuoted_single hsecond.1 hsecond.2).2.1 (by
    intro q hq
    obtain rfl := hq.unique (q := 6) (by decide)
    decide)
  exact ⟨⟨hfirst.1, hfirst.2, hclosed⟩, hsecond.1, hsecond.2, hunclosed⟩

end Dbml.Text
