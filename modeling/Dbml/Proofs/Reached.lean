import Dbml.Proofs.LocalStatements

/-!
# Where the reader comes to

A document is read statement by statement, and a table line by line. So the reader comes to some
places of a text as to a statement or as to a line, behind others. From there on it reads the same
whatever it has come from.

Whether it comes to a place in front of the end of a text does not depend on what stands behind the
text, since what it reads up to there is in front of the end too.

Results:
* `reachesStatement_append_iff`, `reachesLine_append_iff`: what stands behind a text does not matter
  for where the reader comes to in it;
* `ReachesStatement.read`, `ReachesLine.read`: what is read of a document, given what is read from
  such a place on;
* `ReachesStatement.read_append`, `ReachesLine.read_append`: the same, for the last statement or line
  of a text with something behind it.
-/
namespace Dbml

open Text Outline Canonical

/-! ## Runs of the reader -/

/-- Some steps of a repetition, with what each has read. -/
inductive Steps {α : Type} (step : List Char → Option (α × List Char)) :
    List Char → List α → List Char → Prop
  | nil (s : List Char) : Steps step s [] s
  | cons {s r t : List Char} {a : α} {as : List α} (h : step s = some (a, r))
    (hs : Steps step r as t) : Steps step s (a :: as) t

section Runs

variable {α : Type} {step : List Char → Option (α × List Char)} {s t : List Char} {as : List α}

theorem Steps.suffix (p : Progresses step) (h : Steps step s as t) : t <:+ s := by
  induction h with
  | nil => exact List.suffix_rfl
  | cons h _ ih => exact ih.trans (p h).1

/-- A repetition goes on from where some of its steps lead. -/
theorem Steps.many (p : Progresses step) (h : Steps step s as t) :
    many step p s = (as ++ (many step p t).1, (many step p t).2) := by
  induction h with
  | nil => rfl
  | cons h _ ih => rw [many_of_some h, ih]; rfl

end Runs

/-- The reader comes to `rest` as to a statement, behind these others. -/
def ReachesStatement (text : List Char) (items : Outline) (rest : List Char) : Prop :=
  ∃ s, Steps item? text items s ∧ skipFiller s = rest

theorem ReachesStatement.suffix {text rest : List Char} {items : Outline}
    (h : ReachesStatement text items rest) : rest <:+ text := by
  obtain ⟨s, hs, rfl⟩ := h
  exact (skipFiller_suffix s).trans (hs.suffix item?_progresses)

/-- The reader comes to `rest` as to a line of a table, behind these statements, the table's header
and these lines. The body of the table starts at `body`. -/
def ReachesLine (text : List Char) (items : Outline) (header : TableHeader) (body : List Char)
    (lines : List Line) (rest : List Char) : Prop :=
  ∃ s r t, ReachesStatement text items s ∧ keyword? "Table" s = some r ∧
    readHeader r = .ok (header, body) ∧ Steps line? body lines t ∧ skipFiller t = rest

/-! ## Runs in front of the end -/

section Front

variable {α : Type} {x : List Char} {f : α → α} {step : List Char → Option (α × List Char)}

omit f step in
/-- What lies between two texts with `x` behind them has `x` behind it. -/
theorem between_suffixes {v s w : List Char} (hv : v ++ x <:+ s) (hw : s <:+ w ++ x) :
    ∃ u, s = u ++ x ∧ u <:+ w ∧ v <:+ u := by
  obtain ⟨y, rfl⟩ := hv
  obtain ⟨z, hz⟩ := hw
  refine ⟨y ++ v, (List.append_assoc y v x).symm, ⟨z, ?_⟩, List.suffix_append y v⟩
  exact (List.append_left_inj x).1 (by rw [← hz]; simp)

theorem LocalSkip.append_iff {skip : List Char → List Char} (h : LocalSkip x skip) {w v : List Char}
    (hq : '\'' ∉ w) (hv : v ≠ []) : skip (w ++ x) = v ++ x ↔ skip w = v := by
  have hrest := h.remains w hq
  generalize skip (w ++ x) = t at hrest ⊢
  generalize skip w = t' at hrest ⊢
  cases hrest with
  | front => exact List.append_left_inj x
  | past hs =>
    refine iff_of_false (fun he => ?_) (Ne.symm hv)
    have hlen := hs.length_le
    rw [he, List.length_append] at hlen
    have := List.length_pos_iff.2 hv
    omega

/-- Behind filler, a step that leaves something in front of the end is the same without what stands
behind it. -/
theorem step_append_iff (front : List Char → Option (α × List Char)) (hx : GapFront x)
    (hstep : ∀ s, step s = front (skipFiller s))
    (hsuffix : ∀ s a r, front s = some (a, r) → r <:+ s)
    (hfront : ∀ w, w ≠ [] → '\'' ∉ w → Option.Rel (Keeps x f) (front (w ++ x)) (front w))
    {w v : List Char} (hq : '\'' ∉ w) (hv : v ≠ []) {b : α} :
    step (w ++ x) = some (b, v ++ x) ↔ ∃ a, step w = some (a, v) ∧ b = f a := by
  have hpos := List.length_pos_iff.2 hv
  have hrest := (skipFiller_local hx).remains w hq
  have hq' : '\'' ∉ skipFiller w := fun h => hq ((skipFiller_suffix w).mem h)
  rw [hstep, hstep]
  generalize skipFiller (w ++ x) = t at hrest ⊢
  generalize skipFiller w = t' at hrest hq' ⊢
  cases hrest with
  | past hs =>
    refine iff_of_false (fun he => ?_) ?_
    · have hlen := ((hsuffix _ _ _ he).trans hs).length_le
      rw [List.length_append] at hlen
      omega
    · rintro ⟨a, ha, -⟩
      exact hv (List.suffix_nil.1 (hsuffix _ _ _ ha))
  | front hne =>
    have hrel := hfront t' hne hq'
    generalize front (t' ++ x) = o at hrel ⊢
    generalize front t' = o' at hrel ⊢
    cases hrel with
    | none => simp
    | @some p p' h =>
      obtain ⟨a, r⟩ := p
      obtain ⟨a', r'⟩ := p'
      obtain ⟨hvalue, hrest⟩ := h
      cases hrest with
      | front hne =>
        obtain rfl : a = f a' := hvalue hne
        constructor
        · intro he
          obtain ⟨rfl, hr⟩ := Prod.mk.inj (Option.some.inj he)
          obtain rfl : r' = v := (List.append_left_inj x).1 hr
          exact ⟨a', rfl, rfl⟩
        · rintro ⟨b, he, rfl⟩
          obtain ⟨rfl, rfl⟩ := Prod.mk.inj (Option.some.inj he)
          rfl
      | past hs =>
        refine iff_of_false (fun he => ?_) ?_
        · obtain ⟨-, he⟩ := Prod.mk.inj (Option.some.inj he)
          have hlen := hs.length_le
          rw [he, List.length_append] at hlen
          omega
        · rintro ⟨a, ha, -⟩
          exact hv (Prod.mk.inj (Option.some.inj ha)).2.symm

/-- So are steps one after the other. -/
theorem steps_append_iff (p : Progresses step)
    (hstep : ∀ w v, '\'' ∉ w → v ≠ [] → ∀ b,
      step (w ++ x) = some (b, v ++ x) ↔ ∃ a, step w = some (a, v) ∧ b = f a)
    {w v : List Char} (hq : '\'' ∉ w) (hv : v ≠ []) {bs : List α} :
    Steps step (w ++ x) bs (v ++ x) ↔ ∃ as, Steps step w as v ∧ bs = as.map f := by
  constructor
  · intro h
    generalize hs : w ++ x = s at h
    generalize ht : v ++ x = t at h
    induction h generalizing w with
    | nil s =>
      obtain rfl := (List.append_left_inj x).1 (hs.trans ht.symm)
      exact ⟨[], .nil w, rfl⟩
    | @cons s r t b bs hb hsteps ih =>
      subst hs
      -- What is left behind the step still holds what is left behind all of them.
      obtain ⟨u, rfl, hu, hvu⟩ := between_suffixes (ht ▸ hsteps.suffix p) (p hb).1
      have hne : u ≠ [] := fun h => hv (List.suffix_nil.1 (h ▸ hvu))
      obtain ⟨a, ha, rfl⟩ := (hstep w u hq hne b).1 hb
      obtain ⟨as, has, rfl⟩ := ih (fun h => hq (hu.mem h)) rfl ht
      exact ⟨a :: as, .cons ha has, rfl⟩
  · rintro ⟨as, h, rfl⟩
    induction h with
    | nil => exact .nil _
    | @cons s r t a as ha hsteps ih =>
      have hne : r ≠ [] := by
        rintro rfl
        exact hv (List.suffix_nil.1 (hsteps.suffix p))
      exact .cons ((hstep s r hq hne _).2 ⟨a, ha, rfl⟩) (ih (fun h => hq ((p ha).1.mem h)) hv)

end Front

/-- The statement at the front, given text that starts with no filler. None at the end. -/
def frontItem? : List Char → Option (Item × List Char)
  | [] => none
  | c :: r => some (readItem (c :: r))

section Reaches

variable {x : List Char} (hx : GapFront x)
  (hopen : StopsAt (fun c => c == '{' || c == ':') (skipInline x)) {w v : List Char}
  (hq : '\'' ∉ w) (hv : v ≠ [])
include hx hopen hq hv

theorem item?_append_iff {i : Item} :
    item? (w ++ x) = some (i, v ++ x) ↔
      ∃ j, item? w = some (j, v) ∧ i = j.moved (infrontOf x) := by
  refine step_append_iff frontItem? hx (fun _ => rfl) (fun s a r h => ?_) (fun w hne hq => ?_) hq hv
  · cases s with
    | nil => cases h
    | cons c s =>
      have hsuffix := readItem_suffix (c :: s)
      rw [Option.some.inj h] at hsuffix
      exact hsuffix
  · obtain ⟨c, w, rfl⟩ := List.exists_cons_of_ne_nil hne
    exact .some ((readItem_local hx hopen).keeps (c :: w) hq)

theorem line?_append_iff {l : Line} :
    line? (w ++ x) = some (l, v ++ x) ↔
      ∃ m, line? w = some (m, v) ∧ l = m.moved (infrontOf x) :=
  step_append_iff (frontLine? readLine) hx (fun _ => rfl)
    (fun _ _ _ h => frontLine?_suffix readLine_suffix h)
    (fun _ hne hq => frontLine?_keeps (readLine_local hx hopen) hne hq) hq hv

/-- Whether the reader comes to a statement in front of the end of a text does not depend on what
stands behind the text. -/
theorem reachesStatement_append_iff {items : Outline} :
    ReachesStatement (w ++ x) items (v ++ x) ↔
      ∃ o, ReachesStatement w o v ∧ items = o.moved (infrontOf x) := by
  have hsteps := @steps_append_iff _ x (Item.moved (infrontOf x)) item? item?_progresses
    (fun _ _ hq hv _ => item?_append_iff hx hopen hq hv)
  constructor
  · rintro ⟨s, hs, hrest⟩
    obtain ⟨u, rfl, hu, hvu⟩ := between_suffixes (hrest ▸ skipFiller_suffix s)
      (hs.suffix item?_progresses)
    have hne : u ≠ [] := fun h => hv (List.suffix_nil.1 (h ▸ hvu))
    obtain ⟨o, ho, rfl⟩ := (hsteps hq hne).1 hs
    exact ⟨o, ⟨u, ho, ((skipFiller_local hx).append_iff (fun h => hq (hu.mem h)) hv).1 hrest⟩, rfl⟩
  · rintro ⟨o, ⟨s, hs, hrest⟩, rfl⟩
    have hne : s ≠ [] := by
      rintro rfl
      exact hv (List.suffix_nil.1 (hrest ▸ skipFiller_suffix []))
    have hs' := hs.suffix item?_progresses
    exact ⟨s ++ x, (hsteps hq hne).2 ⟨o, hs, rfl⟩,
      ((skipFiller_local hx).append_iff (fun h => hq (hs'.mem h)) hv).2 hrest⟩

omit hopen in
theorem readHeader_append_iff {header : TableHeader} :
    readHeader (w ++ x) = .ok (header, v ++ x) ↔ readHeader w = .ok (header, v) := by
  have hok : ∀ (s : List Char) (p : TableHeader × List Char),
      readHeader s = .ok p ↔ outcome (readHeader s) = (.ok p.1, p.2) := by
    intro s p
    cases readHeader s with
    | ok q => simp [outcome, Prod.ext_iff]
    | error f => simp [outcome]
  obtain ⟨hvalue, hrest⟩ := (readHeader_local hx).keeps w hq
  rw [hok, hok]
  generalize outcome (readHeader (w ++ x)) = p at hvalue hrest ⊢
  generalize outcome (readHeader w) = p' at hvalue hrest ⊢
  obtain ⟨a, r⟩ := p
  obtain ⟨a', r'⟩ := p'
  cases hrest with
  | front hne =>
    obtain rfl : a = a' := hvalue hne
    simp only [Prod.mk.injEq]
    exact and_congr_right fun _ => List.append_left_inj x
  | past hs =>
    refine iff_of_false (fun he => ?_) fun he => hv (Prod.mk.inj he).2.symm
    have hlen := hs.length_le
    have hpos := List.length_pos_iff.2 hv
    rw [(Prod.mk.inj he).2, List.length_append] at hlen
    omega

/-- Whether the reader comes to a line in front of the end of a text does not depend on what stands
behind the text. -/
theorem reachesLine_append_iff {items : Outline} {header : TableHeader} {body : List Char}
    {lines : List Line} :
    ReachesLine (w ++ x) items header body lines (v ++ x) ↔
      ∃ o b ls, ReachesLine w o header b ls v ∧ items = o.moved (infrontOf x) ∧ body = b ++ x ∧
        lines = ls.map (Line.moved (infrontOf x)) := by
  have hsteps := @steps_append_iff _ x (Line.moved (infrontOf x)) line? line?_progresses
    (fun _ _ hq hv _ => line?_append_iff hx hopen hq hv)
  have hnotempty : ∀ {y : List Char}, v <:+ y → y ≠ [] := fun h he =>
    hv (List.suffix_nil.1 (he ▸ h))
  constructor
  · rintro ⟨s, r, t, hs, hk, hh, hl, hrest⟩
    have ht : v ++ x <:+ t := hrest ▸ skipFiller_suffix t
    have hb := ht.trans (hl.suffix line?_progresses)
    have hr := hb.trans (readHeader_ok_suffix hh)
    obtain ⟨s, rfl, hsw, hvs⟩ := between_suffixes (hr.trans (keyword?_suffix hk)) hs.suffix
    have hqs : '\'' ∉ s := fun h => hq (hsw.mem h)
    obtain ⟨o, ho, rfl⟩ := (reachesStatement_append_iff hx hopen hq (hnotempty hvs)).1 hs
    rw [keyword?_append_gap hx (by decide)] at hk
    obtain ⟨r, hkr, rfl⟩ := Option.map_eq_some_iff.1 hk
    have hqr : '\'' ∉ r := fun h => hqs ((keyword?_suffix hkr).mem h)
    obtain ⟨b, rfl, hbr, hvb⟩ := between_suffixes hb (readHeader_ok_suffix hh)
    have hqb : '\'' ∉ b := fun h => hqr (hbr.mem h)
    obtain ⟨t, rfl, htb, hvt⟩ := between_suffixes ht (hl.suffix line?_progresses)
    obtain ⟨ls, hls, rfl⟩ := (hsteps hqb (hnotempty hvt)).1 hl
    exact ⟨o, b, ls, ⟨s, r, t, ho, hkr, (readHeader_append_iff hx hqr (hnotempty hvb)).1 hh, hls,
      ((skipFiller_local hx).append_iff (fun h => hqb (htb.mem h)) hv).1 hrest⟩, rfl, rfl, rfl⟩
  · rintro ⟨o, b, ls, ⟨s, r, t, hs, hk, hh, hl, hrest⟩, rfl, rfl, rfl⟩
    have hvt : v <:+ t := hrest ▸ skipFiller_suffix t
    have htb := hl.suffix line?_progresses
    have hbr := readHeader_ok_suffix hh
    have hrs := keyword?_suffix hk
    have hvb := hvt.trans htb
    have hqs : '\'' ∉ s := fun h => hq (hs.suffix.mem h)
    have hqr : '\'' ∉ r := fun h => hqs (hrs.mem h)
    have hqb : '\'' ∉ b := fun h => hqr (hbr.mem h)
    refine ⟨s ++ x, r ++ x, t ++ x, ?_, ?_, ?_, ?_, ?_⟩
    · exact (reachesStatement_append_iff hx hopen hq (hnotempty (hvb.trans (hbr.trans hrs)))).2
        ⟨o, hs, rfl⟩
    · rw [keyword?_append_gap hx (by decide), hk]
      rfl
    · exact (readHeader_append_iff hx hqr (hnotempty hvb)).2 hh
    · exact (hsteps hqb (hnotempty hvt)).2 ⟨ls, hl, rfl⟩
    · exact ((skipFiller_local hx).append_iff (fun h => hqb (htb.mem h)) hv).2 hrest

end Reaches

/-! ## What is read from a place on -/

theorem Text.skipFiller_skipFiller (s : List Char) : skipFiller (skipFiller s) = skipFiller s :=
  skipMany_of_none (skipMany_stops s)

section Reading

variable {text s q : List Char} {items : Outline}

theorem ReachesStatement.read {i : Item} (h : ReachesStatement text items s)
    (hi : item? s = some (i, q)) : Outline.read text = items ++ i :: Outline.read q := by
  obtain ⟨t, ht, rfl⟩ := h
  rw [Outline.read, ht.many item?_progresses]
  refine congrArg (items ++ ·) (read_of_item? ?_)
  rw [← hi, item?, item?, skipFiller_skipFiller]

/-- A table with one of its lines, given what the reader has come from and what is read behind the
line. -/
def tableWith (header : TableHeader) (body : List Char) (lines : List Line) (l : Line)
    (rest : List Line × Option Fault) : Item :=
  .table (tableItem header body (lines ++ l :: rest.1, rest.2))

theorem ReachesLine.read {header : TableHeader} {body : List Char} {lines : List Line} {l : Line}
    (h : ReachesLine text items header body lines s) (hl : line? s = some (l, q)) :
    Outline.read text =
      items ++ tableWith header body lines l (readLines q).1 :: Outline.read (readLines q).2 := by
  obtain ⟨u, r, t, hu, hk, hh, hlines, rfl⟩ := h
  have hsome : line? t = some (l, q) := by
    rw [← hl, line?, line?, skipFiller_skipFiller]
  have hbody : readLines body =
      ((lines ++ l :: (readLines q).1.1, (readLines q).1.2), (readLines q).2) := by
    have hblock := closeBlock_append .noTableClosing (lines ++ [l])
      (many line? line?_progresses q).1 (skipFiller (many line? line?_progresses q).2)
    rw [List.append_assoc, List.singleton_append] at hblock
    rw [readLines, hlines.many line?_progresses, many_of_some hsome, hblock]
    exact Prod.ext (Prod.ext (List.append_cons lines l (readLines q).1.1).symm rfl) rfl
  have hitem : readItem u =
      (tableWith header body lines l (readLines q).1, (readLines q).2) := by
    simp only [readItem, hk, readTable, hh]
    rw [readBody_eq, hbody]
    rfl
  refine hu.read ?_
  have hfront : skipFiller u = u := by
    obtain ⟨v, -, rfl⟩ := hu
    exact skipFiller_skipFiller v
  rw [item?, hfront]
  cases u with
  | nil => cases hk
  | cons c u => exact congrArg some hitem

end Reading

/-! ## What is read in front of the end -/

theorem tableWith_moved (f : List Char → List Char) (header : TableHeader) (body : List Char)
    (lines : List Line) (l : Line) (rest : List Line × Option Fault) :
    (tableWith header body lines l rest).moved f =
      tableWith header (f body) (lines.map (Line.moved f)) (l.moved f)
        (rest.map (List.map (Line.moved f)) (Option.map (Fault.moved f))) := by
  rw [tableWith, Item.moved, tableItem_moved]
  simp [tableWith]

section Front

variable {x : List Char} (hx : GapFront x)
  (hopen : StopsAt (fun c => c == '{' || c == ':') (skipInline x)) {w v q : List Char}
  (hq : '\'' ∉ w) (hv : v ≠ []) {items : Outline}
include hx hopen hq hv

/-- Of a text with something behind it the statements in front of its last one are those of the text
alone, but for their places. -/
theorem ReachesStatement.read_append (h : ReachesStatement w items v) {i : Item}
    (hi : item? (v ++ x) = some (i, q)) :
    (Outline.read (w ++ x)).unplaced = unplaced (items ++ i :: Outline.read q) := by
  have hreach := (reachesStatement_append_iff hx hopen hq hv).2 ⟨items, h, rfl⟩
  rw [hreach.read hi, unplaced_append, unplaced_append]
  exact congrArg (· ++ _) (items.unplaced_moved _)

/-- So are the lines in front of its last one. -/
theorem ReachesLine.read_append {header : TableHeader} {body : List Char} {lines : List Line}
    (h : ReachesLine w items header body lines v) {l : Line}
    (hl : line? (v ++ x) = some (l, q)) :
    (Outline.read (w ++ x)).unplaced =
      unplaced (items ++ tableWith header body lines l (readLines q).1 ::
        Outline.read (readLines q).2) := by
  have hreach := (reachesLine_append_iff hx hopen hq hv).2 ⟨items, body, lines, h, rfl, rfl, rfl⟩
  have hlines : (lines.map (Line.moved (infrontOf x))).map (Line.moved fun _ => []) =
      lines.map (Line.moved fun _ => []) := by
    rw [List.map_map]
    exact List.map_congr_left fun m _ => m.moved_moved _ _
  rw [hreach.read hl, unplaced_append, unplaced_append]
  refine congr (congrArg (· ++ ·) (items.unplaced_moved _)) ?_
  rw [unplaced, unplaced, moved_cons, moved_cons, tableWith_moved, tableWith_moved, hlines]

end Front

end Dbml
