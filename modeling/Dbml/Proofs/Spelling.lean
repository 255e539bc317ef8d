import Dbml.Proofs.FromText

/-!
# How names are spelled

A reader of names takes a bare word as it is. A quoted token takes more text than the name that
comes of it: its two quotes where it is closed, one quote at least where the line ends before. So
the names of a link tell how long the text is that they were read from, and only bare words are as
long as their text (`Spells`).

Results:
* `readEndpoint_spells`: what is read as an endpoint spells its two names on one line;
* `scanRefLine_spells`: what is read as a link is two such pieces around the symbol.
-/
namespace Dbml.Text

open Outline

/-- Nothing follows on the line. -/
def LineOver (s : List Char) : Prop := StopsAt (· != '\n') s

theorem LineOver.eq_nil {w r : List Char} (h : LineOver (w ++ r)) (hw : '\n' ∉ w) : w = [] := by
  cases w with
  | nil => rfl
  | cons c w =>
    have hc : c = '\n' := by simpa using stopsAt_cons.1 h
    exact absurd (hc ▸ List.mem_cons_self) hw

/-! ## Quoted tokens -/

/-- In double quotes or backticks, one character of a token takes one of the line or two. -/
theorem quotedChar?_taken {q : Char} (hq : q ≠ '\'') {s r : List Char} {c : Char}
    (h : quotedChar? q s = some (c, r)) : ∃ w, s = w ++ r ∧ '\n' ∉ w ∧ 1 ≤ w.length := by
  have hsingle : (q == '\'') = false := beq_eq_false_iff_ne.2 hq
  unfold quotedChar? at h
  split at h
  · simp at h
  · rename_i k t
    simp only [hsingle, Bool.false_and, Bool.not_false, Bool.and_true] at h
    split at h
    · simp at h
    · rename_i hstop
      have hk : k ≠ '\n' := by rintro rfl; simp at hstop
      split at h
      · split at h
        · rename_i d u
          split at h
          · obtain ⟨-, rfl⟩ := Prod.mk.inj (Option.some.inj h)
            exact ⟨[k], rfl, by simpa using hk.symm, Nat.le_refl 1⟩
          · rename_i hd
            obtain ⟨-, rfl⟩ := Prod.mk.inj (Option.some.inj h)
            have hd : d ≠ '\n' := by simpa using hd
            exact ⟨[k, d], rfl, by simp [hk.symm, hd.symm], by simp⟩
        · obtain ⟨-, rfl⟩ := Prod.mk.inj (Option.some.inj h)
          exact ⟨[k], rfl, by simpa using hk.symm, Nat.le_refl 1⟩
      · obtain ⟨-, rfl⟩ := Prod.mk.inj (Option.some.inj h)
        exact ⟨[k], rfl, by simpa using hk.symm, Nat.le_refl 1⟩

/-- In double quotes or backticks, a token stops at its closing quote or with its line. -/
theorem quotedChar?_stops {q : Char} (hq : q ≠ '\'') {s : List Char} (h : quotedChar? q s = none) :
    s.head? = some q ∨ LineOver s := by
  have hsingle : (q == '\'') = false := beq_eq_false_iff_ne.2 hq
  unfold quotedChar? at h
  split at h
  · exact .inr (stopsAt_nil _)
  · rename_i k t
    simp only [hsingle, Bool.false_and, Bool.not_false, Bool.and_true] at h
    split at h
    · rename_i hstop
      rcases (by simpa using hstop : k = q ∨ k = '\n') with rfl | rfl
      · exact .inl rfl
      · exact .inr (stopsAt_cons.2 rfl)
    · repeat' split at h
      all_goals simp at h

/-- The characters of a token in double quotes or backticks take at least as much of the line. -/
theorem quotedChars_taken {q : Char} (hq : q ≠ '\'') (s : List Char) :
    ∃ w, s = w ++ (quotedChars q s).2 ∧ '\n' ∉ w ∧ (quotedChars q s).1.length ≤ w.length ∧
      ((quotedChars q s).2.head? = some q ∨ LineOver (quotedChars q s).2) := by
  refine many_induction (p := quotedChar?_progresses q)
    (motive := fun s cs r => ∃ w, s = w ++ r ∧ '\n' ∉ w ∧ cs.length ≤ w.length ∧
      (r.head? = some q ∨ LineOver r)) (fun s h => ?_) (fun s c r cs t h ih => ?_) s
  · exact ⟨[], rfl, List.not_mem_nil, Nat.le_refl 0, quotedChar?_stops hq h⟩
  · obtain ⟨v, rfl, hv, hlen⟩ := quotedChar?_taken hq h
    obtain ⟨w, rfl, hw, hle, hend⟩ := ih
    refine ⟨v ++ w, by simp, by simp [hv, hw], ?_, hend⟩
    rw [List.length_cons, List.length_append]; omega

/-! ## Names -/

/-- Names one after another, with a dot before each. -/
def dotted (names : List String) : List Char := names.flatMap fun n => '.' :: n.toList

/-- How text `w` of one line spells names with a dot before each, given the text behind it. -/
inductive Spells (names : List String) (w r : List Char) : Prop
  /-- Character by character. -/
  | bare (hn : ∀ n ∈ names, isWord n.toList = true) (h : w = dotted names)
  /-- With a token in quotes. -/
  | quoted (h : (dotted names).length + 2 ≤ w.length)
  /-- With a token at the end of the line that is never closed. -/
  | unclosed (h : (dotted names).length + 1 ≤ w.length) (hr : LineOver r)

theorem dotted_cons (n : String) (names : List String) :
    dotted (n :: names) = dotted [n] ++ dotted names := by
  simp [dotted]

theorem Spells.length_le {names : List String} {w r : List Char} (h : Spells names w r) :
    (dotted names).length ≤ w.length := by
  cases h with
  | bare hn h => rw [h]
  | quoted h => omega
  | unclosed h hr => omega

/-- A name and the names behind it. -/
theorem Spells.append {n : String} {names : List String} {v w r : List Char}
    (h : Spells [n] v (w ++ r)) (hw : '\n' ∉ w) (h' : Spells names w r) :
    Spells (n :: names) (v ++ w) r := by
  have hlen := h'.length_le
  have hsum : (dotted (n :: names)).length = (dotted [n]).length + (dotted names).length := by
    rw [dotted_cons, List.length_append]
  have happ : (v ++ w).length = v.length + w.length := List.length_append
  cases h with
  | bare hn hv =>
    cases h' with
    | bare hns hw =>
      refine .bare ?_ (by rw [hv, hw, ← dotted_cons])
      exact List.forall_mem_cons.2 ⟨hn n List.mem_cons_self, hns⟩
    | quoted h => exact .quoted (by rw [hv] at happ; rw [hv]; omega)
    | unclosed h hr => exact .unclosed (by rw [hv] at happ; rw [hv]; omega) hr
  | quoted hv => exact .quoted (by omega)
  | unclosed hv hr =>
    -- Nothing follows on the line, so no further name does.
    obtain rfl := hr.eq_nil hw
    exact .unclosed (by simp only [List.length_nil] at happ hlen; omega) hr

/-- Text that spells names with further ones before them is longer than the last ones alone. -/
theorem Spells.of_append {before names : List String} {w r : List Char}
    (h : Spells (before ++ names) w r) (hne : ∀ n ∈ before, n ≠ "") : Spells names w r := by
  cases before with
  | nil => exact h
  | cons n before =>
    have hn : n.toList ≠ [] := fun he => hne n List.mem_cons_self (String.toList_inj.1 he)
    have hpos := List.length_pos_iff.2 hn
    have hlen := h.length_le
    simp only [List.cons_append, dotted, List.flatMap_cons, List.flatMap_append, List.length_append,
      List.length_cons] at hlen
    refine .quoted ?_
    rw [dotted]; omega

theorem isWordChar_of_isWord {w : List Char} (h : isWord w = true) :
    ∀ c ∈ w, isWordChar c = true := by
  cases w with
  | nil => simp
  | cons c w =>
    rw [isWord, Bool.and_eq_true, List.all_eq_true] at h
    exact List.forall_mem_cons.2 ⟨isWordChar_of_isWordStart h.1, h.2⟩

theorem readWord_taken {s : List Char} (h : (readWord s).1 ≠ []) :
    s = (readWord s).1 ++ (readWord s).2 ∧ isWord (readWord s).1 = true := by
  unfold readWord at h ⊢
  split
  · simp at h
  · split
    · rename_i hc
      refine ⟨by simp [List.takeWhile_append_dropWhile], ?_⟩
      simp [isWord, hc, List.all_takeWhile]
    · rename_i hc; simp [hc] at h

/-- An identifier that was read is a piece of the line that spells it. -/
theorem readIdentifier_spells {s : List Char} (h : (readIdentifier s).1 ≠ []) :
    ∃ w, s = w ++ (readIdentifier s).2 ∧ '\n' ∉ w ∧
      Spells [String.ofList (readIdentifier s).1] ('.' :: w) (readIdentifier s).2 := by
  have hdot : ∀ name : List Char, dotted [String.ofList name] = '.' :: name := by
    intro name; simp [dotted]
  unfold readIdentifier at h ⊢
  split at h
  · simp at h
  · rename_i c t
    split at h
    · rename_i hc
      have hq : c ≠ '\'' := by rintro rfl; simp at hc
      have hcn : c ≠ '\n' := by rintro rfl; simp at hc
      rw [if_pos hc, readQuoted_of_ne hq]
      obtain ⟨w, hw, hn, hlen, hend⟩ := quotedChars_taken hq t
      simp only [Prod.map, id]
      rcases hend with hclosed | hover
      · obtain ⟨r, hr⟩ := List.head?_eq_some_iff.1 hclosed
        refine ⟨c :: (w ++ [c]), ?_, by simp [hn, hcn.symm], .quoted ?_⟩
        · rw [hr] at hw
          rw [hr, dropChar, if_pos (beq_self_eq_true c), hw]; simp
        · rw [hdot]; simp only [List.length_cons, List.length_append, List.length_nil]; omega
      · have hdrop : dropChar c (quotedChars c t).2 = (quotedChars c t).2 := by
          cases hr : (quotedChars c t).2 with
          | nil => rfl
          | cons d r =>
            rw [hr] at hover
            have hd : d = '\n' := by simpa using stopsAt_cons.1 hover
            have hdc : (d == c) = false := by rw [hd]; exact beq_eq_false_iff_ne.2 hcn.symm
            simp [dropChar, hdc]
        rw [hdrop]
        refine ⟨c :: w, by rw [List.cons_append, ← hw], by simp [hn, hcn.symm], .unclosed ?_ hover⟩
        rw [hdot]; simp only [List.length_cons]; omega
    · rename_i hc
      rw [if_neg hc]
      obtain ⟨hs, hword⟩ := readWord_taken h
      have hn := not_mem_of_isWordChar (c := '\n') (by decide) (isWordChar_of_isWord hword)
      exact ⟨_, hs, hn, .bare (by simpa using hword) (hdot _).symm⟩

/-- Names with a dot before each that were read are a piece of the line that spells them. -/
theorem many_namePart?_spells (s : List Char) :
    ∃ w, s = w ++ (many namePart? namePart?_progresses s).2 ∧ '\n' ∉ w ∧
      Spells (many namePart? namePart?_progresses s).1 w
        (many namePart? namePart?_progresses s).2 ∧
      ∀ n ∈ (many namePart? namePart?_progresses s).1, n ≠ "" := by
  refine many_induction (p := namePart?_progresses)
    (motive := fun s names r => ∃ w, s = w ++ r ∧ '\n' ∉ w ∧ Spells names w r ∧
      ∀ n ∈ names, n ≠ "") (fun s _ => ?_) (fun s n r names t h ih => ?_) s
  · exact ⟨[], rfl, List.not_mem_nil, .bare (by simp) rfl, by simp⟩
  · obtain ⟨w, rfl, hw, hspells, hne⟩ := ih
    unfold namePart? at h
    split at h
    · rename_i u
      dsimp only at h
      split at h
      · simp at h
      · rename_i hname
        obtain ⟨rfl, hr⟩ := Prod.mk.inj (Option.some.inj h)
        have hname : (readIdentifier u).1 ≠ [] := by simpa using hname
        obtain ⟨v, hu, hv, hspell⟩ := readIdentifier_spells hname
        rw [hr] at hu hspell
        refine ⟨'.' :: v ++ w, by rw [hu]; simp, by simp [hv, hw], hspell.append hw hspells, ?_⟩
        refine List.forall_mem_cons.2 ⟨fun he => hname ?_, hne⟩
        simpa using congrArg String.toList he
    · simp at h

/-! ## Endpoints and links -/

/-- An endpoint that was read is a piece of the line that spells its names. -/
theorem readEndpoint_spells {s r : List Char} {name : ColumnName}
    (h : readEndpoint s = (.named name, r)) :
    ∃ w, s = w ++ r ∧ '\n' ∉ w ∧ Spells [name.table, name.column] ('.' :: w) r := by
  unfold readEndpoint at h
  split at h
  · simp at h
  · dsimp only at h
    split at h
    · simp at h
    · rename_i hname
      have hfirst : namePart? ('.' :: s) =
          some (String.ofList (readIdentifier s).1, (readIdentifier s).2) := by
        simp [namePart?, Bool.eq_false_iff.2 hname]
      obtain ⟨w, hw, hn, hspells, hne⟩ := many_namePart?_spells ('.' :: s)
      rw [many_of_some hfirst] at hw hspells hne
      generalize String.ofList (readIdentifier s).1 ::
        (many namePart? namePart?_progresses (readIdentifier s).2).1 = names at h hspells hne
      generalize (many namePart? namePart?_progresses (readIdentifier s).2).2 = t at h hw hspells
      unfold endpointOfNames at h
      split at h
      · simp at h
      · simp at h
      · split at h
        · rename_i column table before hnames
          obtain ⟨hname, rfl⟩ := Prod.mk.inj h
          obtain rfl := EndpointText.named.inj hname
          have hnames : names = before.reverse ++ [table, column] := by
            rw [← List.reverse_reverse names, hnames]; simp
          rw [hnames] at hspells hne
          have hspells : Spells [table, column] w t :=
            hspells.of_append fun n hm => hne n (List.mem_append_left _ hm)
          cases w with
          | nil => exact absurd hspells.length_le (by simp [dotted])
          | cons c w =>
            obtain ⟨rfl, hs⟩ := List.cons.inj hw
            exact ⟨w, hs, fun hm => hn (List.mem_cons_of_mem _ hm), hspells⟩
        · simp at h

theorem readSymbol?_taken {s r : List Char} {k : Cardinality} (h : readSymbol? s = some (k, r)) :
    s = (Canonical.symbol k).toList ++ r := by
  unfold readSymbol? at h
  split at h <;> simp only [Option.some.injEq, Prod.mk.injEq, reduceCtorEq] at h <;>
    obtain ⟨rfl, rfl⟩ := h <;> rfl

theorem skipInline_taken (s : List Char) :
    ∃ w, s = w ++ skipInline s ∧ '\n' ∉ w := by
  refine ⟨s.takeWhile isInlineSpace, List.takeWhile_append_dropWhile.symm, fun hm => ?_⟩
  exact absurd (List.mem_takeWhile_imp hm) (by decide)

/-- A text that starts with what spells a link: on one line its two endpoints, and the symbol with
blanks around it. -/
inductive StartsLink (l : Link) : List Char → Prop
  | intro {v b a w r : List Char} (hv : '\n' ∉ v) (hb : '\n' ∉ b) (ha : '\n' ∉ a) (hw : '\n' ∉ w)
    (source : Spells [l.source.table, l.source.column] ('.' :: v)
      (b ++ ((Canonical.symbol l.cardinality).toList ++ (a ++ (w ++ r)))))
    (target : Spells [l.target.table, l.target.column] ('.' :: w) r)
    (blank : StopsAt isInlineSpace (w ++ r)) :
    StartsLink l (v ++ (b ++ ((Canonical.symbol l.cardinality).toList ++ (a ++ (w ++ r)))))

/-- A link that was read stands on one line, behind the blanks at the front. -/
theorem scanRefLine_spells {s : List Char} {l : Link} (h : (scanRefLine s).1 = .link l) :
    StartsLink l (skipInline s) := by
  unfold scanRefLine at h
  split at h
  · simp at h
  · simp at h
  · rename_i source r hsource
    obtain ⟨v, hsv, hv, hsource⟩ := readEndpoint_spells hsource
    split at h
    · simp at h
    · rename_i cardinality t hsymbol
      obtain ⟨b, hrb, hb⟩ := skipInline_taken r
      obtain ⟨a, hta, ha⟩ := skipInline_taken t
      have hblank : StopsAt isInlineSpace (skipInline t) := stopsAt_dropWhile _ t
      split at h
      · simp at h
      · simp at h
      · rename_i target u htarget
        obtain rfl := RefLine.link.inj h
        obtain ⟨w, hw, hn, htarget⟩ := readEndpoint_spells htarget
        rw [readSymbol?_taken hsymbol] at hrb
        rw [hw] at hta hblank
        rw [hta] at hrb
        rw [hrb] at hsource hsv
        rw [hsv]
        exact .intro hv hb ha hn hsource htarget hblank

end Dbml.Text
