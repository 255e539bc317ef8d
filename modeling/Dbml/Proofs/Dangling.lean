import Dbml.Proofs.Format
import Dbml.Proofs.References
import Dbml.Proofs.Spelling

/-!
# References that lead nowhere

A reference to a table that its document does not have keeps the names that it is written with, and
these stand in place of ids. The canonical text of such a relation writes them as they are. A name
that was quoted loses its quotes there, so only bare words are read back.

Results:
* `bare_of_startsLink`: in the canonical text of a relation, a line that gives its four ids back is
  made of bare words;
* `references_scanned`: every link of a document comes of a line of it;
* `parse_relation_bare`: a relation between bare words is read back from its canonical text;
* `parse_relation_iff`: of the relations that lead nowhere no others are.
-/
namespace Dbml

open Text Outline Canonical

/-! ## The line of a relation -/

theorem dotted_endpoint (e : Endpoint) :
    dotted [e.table, e.column] = '.' :: (endpoint e).toList := by
  simp [dotted, endpoint]

theorem Endpoint.Bare.space_not_mem {e : Endpoint} (h : e.Bare) : ' ' ∉ (endpoint e).toList := by
  have hword : ∀ {w : List Char}, isWord w = true → ' ' ∉ w := fun hw =>
    not_mem_of_isWordChar (by decide) (isWordChar_of_isWord hw)
  simp [endpoint, hword h.table, hword h.column]

theorem symbol_chars (k : Cardinality) : ' ' ∉ (symbol k).toList ∧ '\n' ∉ (symbol k).toList := by
  cases k <;> decide

theorem symbol_ne_nil (k : Cardinality) : (symbol k).toList ≠ [] := by
  cases k <;> decide

/-- A piece of a line that spells an endpoint is the endpoint as it is written, or longer by at
least one character, and by two if the line goes on behind it. -/
theorem spells_endpoint {e : Endpoint} {w r : List Char}
    (h : Spells [e.table, e.column] ('.' :: w) r) :
    (e.Bare ∧ w = (endpoint e).toList) ∨ (endpoint e).toList.length + 1 ≤ w.length ∧
      (LineOver r ∨ (endpoint e).toList.length + 2 ≤ w.length) := by
  cases h with
  | bare hn h =>
    rw [dotted_endpoint] at h
    exact .inl ⟨⟨hn _ (by simp), hn _ (by simp)⟩, (List.cons.inj h).2⟩
  | quoted h =>
    rw [dotted_endpoint, List.length_cons, List.length_cons] at h
    exact .inr ⟨by omega, .inr (by omega)⟩
  | unclosed h hr =>
    rw [dotted_endpoint, List.length_cons, List.length_cons] at h
    exact .inr ⟨by omega, .inl hr⟩

/-- A piece of one line of a block that holds a line between braces lies in that line. -/
theorem infix_of_block {w r line : List Char} (hw : '\n' ∉ w) (hl : 2 ≤ w.length)
    (hb : StopsAt isInlineSpace (w ++ r))
    (h : w ++ r <:+ '\n' :: ' ' :: ' ' :: (line ++ ['\n', '}'])) :
    ∃ q v, line = q ++ (w ++ v) := by
  cases w with
  | nil => simp at hl
  | cons c w =>
    have hnewline : c ≠ '\n' := by rintro rfl; exact hw List.mem_cons_self
    have hspace : c ≠ ' ' := by rintro rfl; exact absurd (stopsAt_cons.1 hb) (by decide)
    have hcons : ∀ {d : Char} {t : List Char}, c ≠ d → c :: w ++ r <:+ d :: t → c :: w ++ r <:+ t :=
      fun hd ht => (List.suffix_cons_iff.1 ht).resolve_left fun he => hd (List.cons.inj he).1
    obtain ⟨q, hq⟩ := hcons hspace (hcons hspace (hcons hnewline h))
    rcases List.append_eq_append_iff.1 hq with ⟨a, rfl, ha⟩ | ⟨a, rfl, ha⟩
    · rcases List.append_eq_append_iff.1 ha with ⟨v, rfl, -⟩ | ⟨v, hv, hend⟩
      · exact ⟨q, v, rfl⟩
      · cases v with
        | nil => exact ⟨q, [], by rw [hv]; simp⟩
        | cons d v =>
          rw [List.cons_append] at hend
          rw [hv, ← (List.cons.inj hend).1] at hw
          exact absurd (List.mem_append_right a List.mem_cons_self) hw
    · have hlen := congrArg List.length ha
      simp only [List.length_cons, List.length_append, List.length_nil] at hlen hl
      have hnil : a = [] := List.length_eq_zero_iff.1 (by omega)
      subst hnil
      exact absurd (List.cons.inj ha).1.symm hnewline

/-- Where an endpoint takes two characters too many, no blank is left behind the symbol. -/
theorem ne_of_long_source {v y s t : List Char} (hy : y ≠ []) (hb : ' ' ∉ y) :
    v ++ (y ++ t) ≠ s ++ ' ' :: (y ++ ' ' :: t) := by
  intro h
  have hcancel : v ++ y = s ++ ' ' :: (y ++ [' ']) :=
    (List.append_left_inj t).1 (by simpa using h)
  have hlast := congrArg List.getLast? hcancel
  rw [List.getLast?_append_of_ne_nil _ hy] at hlast
  have hspace : y.getLast? = some ' ' := by
    rw [hlast, ← List.cons_append, ← List.append_assoc, List.getLast?_concat]
  exact hb (List.mem_of_getLast? hspace)

/-- Where the second endpoint takes a character too many, one blank of the line is left over at
most, and it is the one behind the first endpoint. -/
theorem ne_of_long_target {q b y a w v s t : List Char} (hs : ' ' ∉ s) (hne : s ≠ [])
    (hy : y ≠ []) (hb : ' ' ∉ y) (hw : ' ' ∉ w.head?) (hlong : t.length + 1 ≤ w.length) :
    q ++ (s ++ (b ++ (y ++ (a ++ (w ++ v))))) ≠ s ++ ' ' :: (y ++ ' ' :: t) := by
  intro h
  have hlen := congrArg List.length h
  simp only [List.length_append, List.length_cons] at hlen
  have hhead : ∀ {x x' : List Char}, y ++ x ≠ ' ' :: x' := by
    intro x x' he
    cases y with
    | nil => exact hy rfl
    | cons k y => exact hb ((List.cons.inj he).1 ▸ List.mem_cons_self)
  cases q with
  | nil =>
    have h := (List.append_right_inj s).1 h
    cases b with
    | nil => exact hhead h
    | cons k b =>
      have hlens : b = [] ∧ a = [] := by
        simp only [List.length_cons, List.length_nil] at hlen
        exact ⟨List.length_eq_zero_iff.1 (by omega), List.length_eq_zero_iff.1 (by omega)⟩
      obtain ⟨rfl, rfl⟩ := hlens
      have h := (List.append_right_inj y).1 (List.cons.inj h).2
      cases w with
      | nil => simp at hlong
      | cons d w => exact hw (by rw [(List.cons.inj h).1]; rfl)
  | cons k q =>
    have hlens : q = [] := by
      simp only [List.length_cons] at hlen
      exact List.length_eq_zero_iff.1 (by omega)
    subst hlens
    have hfront : k :: s = s ++ [' '] := by
      have hsplit : (k :: s) ++ (b ++ (y ++ (a ++ (w ++ v)))) = (s ++ [' ']) ++ (y ++ ' ' :: t) := by
        simpa using h
      exact (List.append_inj hsplit (by simp)).1
    have hlast := congrArg List.getLast? hfront
    rw [List.getLast?_concat, List.getLast?_cons_of_ne_nil hne] at hlast
    exact hs (List.mem_of_getLast? hlast)

theorem relationLine_eq (r : Relation) :
    relationLine r = (endpoint r.source).toList ++ ' ' ::
      ((symbol r.cardinality).toList ++ ' ' :: (endpoint r.target).toList) := rfl

/-- A piece of a line that spells an endpoint is not shorter than the endpoint as it is written. -/
theorem length_le_of_spells {e : Endpoint} {w r : List Char}
    (h : Spells [e.table, e.column] ('.' :: w) r) : (endpoint e).toList.length ≤ w.length := by
  rcases spells_endpoint h with ⟨-, rfl⟩ | ⟨h, -⟩
  · exact Nat.le_refl _
  · omega

/-- In the canonical text of a relation, what is read as a link with its symbol lies in the line of
the relation. -/
theorem infix_relationLine {r : Relation} {v b a w u : List Char} (hv : '\n' ∉ v) (hb : '\n' ∉ b)
    (ha : '\n' ∉ a) (hw : '\n' ∉ w) (hne : v ≠ [])
    (hs : StopsAt isInlineSpace (v ++ (b ++ ((symbol r.cardinality).toList ++ (a ++ (w ++ u))))))
    (ht : v ++ (b ++ ((symbol r.cardinality).toList ++ (a ++ (w ++ u)))) <:+
      '\n' :: ' ' :: ' ' :: (relationLine r ++ ['\n', '}'])) :
    ∃ q x, q ++ (v ++ (b ++ ((symbol r.cardinality).toList ++ (a ++ (w ++ x))))) =
      (endpoint r.source).toList ++ ' ' ::
        ((symbol r.cardinality).toList ++ ' ' :: (endpoint r.target).toList) := by
  have hnewline := (symbol_chars r.cardinality).2
  have hpos := List.length_pos_iff.2 hne
  have hpos' := List.length_pos_iff.2 (symbol_ne_nil r.cardinality)
  obtain ⟨q, x, hline⟩ : ∃ q x, relationLine r =
      q ++ ((v ++ (b ++ ((symbol r.cardinality).toList ++ (a ++ w)))) ++ x) := by
    refine infix_of_block (r := u) (by simp [hv, hb, hnewline, ha, hw]) ?_ ?_ ?_
    · simp only [List.length_append]; omega
    · simpa using hs
    · simpa using ht
  exact ⟨q, x, by rw [← relationLine_eq, hline]; simp⟩

/-- In the canonical text of a relation, a line that gives its four ids back is made of bare
words. -/
theorem bare_of_startsLink {r : Relation} {t : List Char}
    (h : StartsLink ⟨columnName r.source, r.cardinality, columnName r.target⟩ t)
    (hs : StopsAt isInlineSpace t)
    (ht : t <:+ '\n' :: ' ' :: ' ' :: (relationLine r ++ ['\n', '}'])) :
    r.source.Bare ∧ r.target.Bare := by
  cases h with
  | @intro v b a w u hv hb ha hw source target blank =>
    have hsource := spells_endpoint (e := r.source) source
    have htarget := spells_endpoint (e := r.target) target
    have hsourceLength := length_le_of_spells (e := r.source) source
    have htargetLength := length_le_of_spells (e := r.target) target
    have hy := symbol_ne_nil r.cardinality
    obtain ⟨hspace, hnewline⟩ := symbol_chars r.cardinality
    have hbareSpace : r.source.Bare → ' ' ∉ (endpoint r.source).toList := fun h => h.space_not_mem
    have hne : (endpoint r.source).toList ≠ [] :=
      List.ne_nil_of_mem (a := '.') (by simp [endpoint])
    have hnonempty : v ≠ [] :=
      List.ne_nil_of_length_pos ((List.length_pos_iff.2 hne).trans_le hsourceLength)
    obtain ⟨q, x, heq⟩ := infix_relationLine hv hb ha hw hnonempty hs ht
    generalize (symbol r.cardinality).toList = y at *
    generalize (endpoint r.source).toList = s at *
    generalize (endpoint r.target).toList = d at *
    -- The line has room for two more characters.
    have hlen := congrArg List.length heq
    simp only [List.length_append, List.length_cons] at hlen
    have hnil : ∀ {l : List Char}, l.length = 0 → l = [] := List.length_eq_zero_iff.1
    rcases hsource with ⟨hbare, rfl⟩ | ⟨-, hover | hlong⟩
    · rcases htarget with ⟨hbare', -⟩ | ⟨hlong, -⟩
      · exact ⟨hbare, hbare'⟩
      · have hhead : ' ' ∉ w.head? := by
          intro hm
          obtain ⟨w', rfl⟩ := List.head?_eq_some_iff.1 hm
          exact absurd (stopsAt_cons.1 blank) (by decide)
        exact absurd heq (ne_of_long_target (hbareSpace hbare) hne hy hspace hhead hlong)
    · -- The symbol stands on the same line.
      rw [← List.append_assoc] at hover
      have hempty := hover.eq_nil (by simp [hb, hnewline])
      exact absurd (List.append_eq_nil_iff.1 hempty).2 hy
    · obtain rfl : q = [] := hnil (by omega)
      obtain rfl : b = [] := hnil (by omega)
      obtain rfl : a = [] := hnil (by omega)
      obtain rfl : x = [] := hnil (by omega)
      rcases htarget with ⟨-, rfl⟩ | ⟨h, -⟩
      · exact absurd (by simpa using heq) (ne_of_long_source hy hspace)
      · omega

/-! ## The links of a document -/

namespace Outline

/-- A link is read from a line somewhere in a text. -/
def ScannedIn (s : List Char) (l : Link) : Prop := ∃ t, t <:+ s ∧ (scanRefLine t).1 = .link l

theorem ScannedIn.of_suffix {s t : List Char} {l : Link} (h : ScannedIn s l) (hs : s <:+ t) :
    ScannedIn t l := by
  obtain ⟨u, hu, hl⟩ := h
  exact ⟨u, hu.trans hs, hl⟩

theorem link?_eq_some_iff {line : RefLine} {l : Link} : line.link? = some l ↔ line = .link l := by
  cases line <;> simp [RefLine.link?]

/-- The links of the lines in a block. -/
theorem blockRefLines_scanned (s : List Char) :
    ∀ l ∈ (many blockRefLine? blockRefLine?_progresses s).1.filterMap RefLine.link?,
      ScannedIn s l := by
  intro l hl
  obtain ⟨line, hline, hlink⟩ := List.mem_filterMap.1 hl
  obtain ⟨t, r, ht, hread⟩ := many_mem s line hline
  unfold blockRefLine? at hread
  split at hread
  · simp at hread
  · simp at hread
  · rename_i c u _ hc
    have hscan : (scanRefLine (c :: u)).1 = line := congrArg Prod.fst (Option.some.inj hread)
    exact ⟨c :: u, hc ▸ (skipFiller_suffix t).trans ht, hscan.trans (link?_eq_some_iff.1 hlink)⟩

theorem readRefs_scanned (s : List Char) : ∀ l ∈ (readRefs s).1.links, ScannedIn s l := by
  have h := (readRefName_suffix (skipInline s)).trans (skipInline_suffix s)
  unfold readRefs
  dsimp only
  split
  · rename_i t e
    rw [e] at h
    intro l hl
    obtain ⟨line, hline, hlink⟩ := List.mem_filterMap.1 hl
    obtain rfl := List.mem_singleton.1 hline
    exact ⟨t, (List.suffix_cons _ _).trans h, link?_eq_some_iff.1 hlink⟩
  · rename_i t e
    rw [e] at h
    have hlines : ∀ l ∈ (many blockRefLine? blockRefLine?_progresses t).1.filterMap RefLine.link?,
        ScannedIn s l := fun l hl =>
      (blockRefLines_scanned t l hl).of_suffix ((List.suffix_cons _ _).trans h)
    split <;> exact hlines
  · simp [RefItem.links]

theorem item?_scanned {s r : List Char} {i : Item} (h : item? s = some (i, r)) (n : Nat)
    {name : Option String} {l : Link} (hl : .link name l ∈ i.references n) : ScannedIn s l := by
  have hs := skipFiller_suffix s
  unfold item? at h
  split at h
  · simp at h
  · rename_i c t e
    rw [e] at hs
    have hread : (readItem (c :: t)).1 = i := congrArg Prod.fst (Option.some.inj h)
    refine ScannedIn.of_suffix ?_ hs
    have hcolumns : ∀ (m : Nat) (cs : List ColumnDraft),
        Reference.link name l ∉ columnReferences n m cs := by
      intro m cs
      induction cs generalizing m with
      | nil => simp [columnReferences]
      | cons c cs ih => simp [columnReferences, ih]
    unfold readItem at hread
    split at hread
    · rename_i u _
      subst hread
      rw [Prod.map_fst] at hl
      cases hd : (readTable u).1 with
      | table d => rw [hd] at hl; exact absurd hl (hcolumns 0 d.columns)
      | unclosed d f => rw [hd] at hl; simp [Item.references] at hl
      | headless f => rw [hd] at hl; simp [Item.references] at hl
    · split at hread
      · rename_i u hu
        subst hread
        obtain ⟨k, hk, he⟩ := List.mem_map.1 hl
        obtain rfl := (Reference.link.inj he).2
        exact (readRefs_scanned u k hk).of_suffix (keyword?_suffix hu)
      · split at hread <;> subst hread <;> simp [Item.references] at hl

/-- Every link of a document is read from a line of it. -/
theorem references_scanned {name : Option String} {l : Link} (s : List Char) (n : Nat)
    (h : .link name l ∈ references n (Outline.read s)) : ScannedIn s l := by
  refine many_induction (p := item?_progresses)
    (motive := fun s o _ => ∀ n, .link name l ∈ references n o → ScannedIn s l)
    (fun s _ n h => ?_) (fun s i r o _ hi ih n h => ?_) s n h
  · simp [references] at h
  · rw [references] at h
    rcases List.mem_append.1 h with h | h
    · exact item?_scanned hi n h
    · exact (ih _ h).of_suffix (item?_progresses hi).1

end Outline

/-! ## The text of one relation -/

/-- The links of a block behind a name are read from it, and so is what follows the block. -/
theorem readRefs_block {name : Option String} (hn : PlainOption name) (s : List Char) :
    (∀ l ∈ (readRefs ((optionalName " " name).toList ++ ' ' :: '{' :: s)).1.links, ScannedIn s l) ∧
      (readRefs ((optionalName " " name).toList ++ ' ' :: '{' :: s)).2 <:+ s := by
  have hrest := (skipFiller_suffix (many blockRefLine? blockRefLine?_progresses s).2).trans
    (many_suffix s)
  unfold readRefs
  simp only [readRefName_optionalName hn s]
  split
  · rename_i v e
    rw [e] at hrest
    exact ⟨blockRefLines_scanned s, (List.suffix_cons _ _).trans hrest⟩
  · exact ⟨blockRefLines_scanned s, hrest⟩

/-- A link of a relation's canonical text is read behind the opening brace. -/
theorem relation_scanned {r : Relation} (hn : PlainOption r.name) {name : Option String} {l : Link}
    (h : .link name l ∈ (Outline.read (relation r).toList).references 0) :
    ScannedIn ('\n' :: ' ' :: ' ' :: (relationLine r ++ ['\n', '}'])) l := by
  obtain ⟨hlinks, hrest⟩ := readRefs_block hn ('\n' :: ' ' :: ' ' :: (relationLine r ++ ['\n', '}']))
  have hitem := item?_relation_eq r []
  rw [List.append_nil] at hitem
  rw [read_of_item? hitem, references] at h
  rcases List.mem_append.1 h with h | h
  · obtain ⟨k, hk, he⟩ := List.mem_map.1 h
    obtain rfl := (Reference.link.inj he).2
    exact hlinks k hk
  · exact (references_scanned _ _ h).of_suffix hrest

/-- The canonical text of a relation is read without faults and with one relation, which says the
same. -/
def Relation.RereadAlone {σ : Type} (r : Relation) (source : IdSource σ) (st : σ) : Prop :=
  ∃ s r', parse source st (relation r) = ⟨some s, []⟩ ∧ s.relations = [r'] ∧ r'.name = r.name ∧
    r'.cardinality = r.cardinality ∧ r'.source = r.source ∧ r'.target = r.target

/-- A source never hands out a given id. -/
def IdSource.Avoids {σ : Type} (source : IdSource σ) (ref : String) : Prop :=
  ∀ (kind : IdKind) (st : σ) (id : String) (st' : σ),
    source.draw kind.stem st = .ok (id, st') → id ≠ ref

theorem IdSource.Avoids.not_mem_idsFor {σ : Type} {source : IdSource σ} {ref : String}
    (h : source.Avoids ref) (kinds : List IdKind) (st : σ) : ref ∉ source.idsFor kinds st := by
  induction kinds generalizing st with
  | nil => simp [idsFor]
  | cons kind kinds ih =>
    unfold idsFor
    split
    · rename_i id st' hd
      exact List.not_mem_cons_of_ne_of_not_mem (h kind st id st' hd).symm (ih st')
    · simp

/-- The relations of a schema are those that the references of its document make. -/
theorem toSchema_makes {o : Outline} (hone : ∀ d ∈ keptTables o, ∀ c ∈ d.columns, c.OneReference)
    (hlast : UnclosedLast o) {ids : List String}
    (hlen : ids.length = (o.flatMap Item.idKinds).length + o.relationCount) :
    List.Forall₂ (Reference.Makes (o.toSchema ids).tables) (o.references 0)
      (o.toSchema ids).relations := by
  have hn : (o.flatMap Item.idKinds).length ≤ ids.length := by omega
  obtain ⟨-, -, hcount, hdrop⟩ := build_numbered hlast hn
  refine forall₂_zipWith_right (fun _ _ cid h => h.makes cid) (build_drafted hone hn [] rfl).2 ?_
  rw [hcount, hdrop, List.length_drop]; omega

/-- The id of a table is one of those drawn. -/
theorem table_id_mem {o : Outline} (hlast : UnclosedLast o) {ids : List String}
    (hn : (o.flatMap Item.idKinds).length ≤ ids.length) {t : Table}
    (ht : t ∈ (o.toSchema ids).tables) : t.id ∈ ids := by
  obtain ⟨-, ⟨rest, hids⟩, -, -⟩ := build_numbered hlast hn
  rw [hids]
  exact List.mem_append_left _ (List.mem_flatMap.2 ⟨t, ht, List.mem_cons_self⟩)

/-- Names that do not lead to the id of a table are kept. -/
theorem LeadsTo.eq_of_no_id {tables : List Table} {name : ColumnName} {e : Endpoint}
    (h : LeadsTo tables name e) (hid : ∀ t ∈ tables, t.id ≠ e.table) : name = columnName e := by
  have hmem : ∀ {t : Table}, TableFor tables name.table t → t ∈ tables := fun ht =>
    mem_of_findTable? (findTable?_eq_some_iff.2 ht)
  cases h with
  | column ht hc => exact absurd rfl (hid _ (hmem ht))
  | noColumn ht hc => exact absurd rfl (hid _ (hmem ht))
  | noTable h => rfl

/-- A name that is read back, where it is set, is not empty. -/
theorem plainOption_of_plain {name : Option String} (h : ∀ n ∈ name, PlainName n) :
    PlainOption name ∧ nonEmpty name = name := by
  have hname : nonEmpty name = name :=
    nonEmpty_of_oneLine fun n hn => ⟨(h n hn).ne_nil, (h n hn).no_newline⟩
  exact ⟨by rw [PlainOption, hname]; exact h, hname⟩

section Parsing

variable {σ : Type} {source : IdSource σ} (hs : source.Total) (st : σ) {r : Relation}
include hs

/-- A relation between bare words is read back from its canonical text. -/
theorem parse_relation_bare (hn : ∀ n ∈ r.name, PlainName n) (hsource : r.source.Bare)
    (htarget : r.target.Bare) : r.RereadAlone source st := by
  obtain ⟨hplain, hname⟩ := plainOption_of_plain hn
  have hitem := item?_relation ⟨hplain, hsource, htarget⟩ []
  have hb : (relation r).toList.all isBlank = false := by
    rw [toList_relation_text]; rfl
  rw [List.append_nil] at hitem
  have hread := read_of_item? hitem
  rw [read_nil] at hread
  have hshows : List.Forall₂ Shows (Outline.read (relation r).toList)
      (blocks { relations := [r] }) := by
    rw [hread]; exact .cons (.relation r) .nil
  obtain ⟨id, hid⟩ : ∃ id, source.idsFor (Outline.read (relation r).toList).idKinds st = [id] := by
    rw [← List.length_eq_one_iff, IdSource.length_idsFor hs, idKinds_of_shows hshows]; rfl
  have hparse : parse source st (relation r) = ⟨some (Schema.reread { relations := [r] } [id]), []⟩ := by
    rw [parse_of_total hs st hb, hid, toSchema_of_shows hshows (Nat.zero_le _),
      faults_of_shows hshows]
    rfl
  exact ⟨_, r.reread [] id, hparse, rfl, hname, rfl, rfl, rfl⟩

/-- A relation that leads nowhere is read back from its canonical text between bare words only. -/
theorem bare_of_rereadAlone (hn : ∀ n ∈ r.name, PlainName n) (hsource : source.Avoids r.source.table)
    (htarget : source.Avoids r.target.table) (h : r.RereadAlone source st) :
    r.source.Bare ∧ r.target.Bare := by
  obtain ⟨s, r', hparse, hrelations, -, hcardinality, hfrom, hto⟩ := h
  have hschema : (parse source st (relation r)).schema = some s := congrArg Parsed.schema hparse
  obtain ⟨-, rfl⟩ := schema_of_parse hs st hschema
  have hone := read_columns scanColumn_oneReference (relation r).toList
  have hlast := read_unclosedLast (relation r).toList
  have hscanned : ∀ name l, .link name l ∈ (Outline.read (relation r).toList).references 0 →
      ScannedIn ('\n' :: ' ' :: ' ' :: (relationLine r ++ ['\n', '}'])) l :=
    fun _ _ => relation_scanned (plainOption_of_plain hn).1
  generalize Outline.read (relation r).toList = o at hone hlast hscanned hrelations
  have hlen : (source.idsFor o.idKinds st).length =
      (o.flatMap Item.idKinds).length + o.relationCount := by
    rw [IdSource.length_idsFor hs, idKinds_eq, List.length_append, List.length_replicate]
  have hmakes := toSchema_makes hone hlast hlen
  have hid : ∀ {ref : String}, source.Avoids ref →
      ∀ t ∈ (o.toSchema (source.idsFor o.idKinds st)).tables, t.id ≠ ref := by
    rintro ref ha t ht rfl
    exact ha.not_mem_idsFor o.idKinds st (table_id_mem hlast (by omega) ht)
  rw [hrelations] at hmakes
  obtain ⟨ref, rest, hmake, -, href⟩ := List.forall₂_cons_right_iff.1 hmakes
  cases hmake with
  | inline ht hc hfk hinline =>
    rw [hfrom] at hinline
    exact absurd (congrArg Endpoint.table hinline).symm (hid hsource _ (List.mem_of_getElem? ht))
  | @link name l _ hlsource hltarget hlname hlcardinality =>
    rw [hfrom] at hlsource
    rw [hto] at hltarget
    obtain ⟨t, ht, hscan⟩ := hscanned name l (href ▸ List.mem_cons_self)
    have hl : l = ⟨columnName r.source, r.cardinality, columnName r.target⟩ := by
      rw [← hlsource.eq_of_no_id (hid hsource), ← hltarget.eq_of_no_id (hid htarget),
        ← hcardinality, hlcardinality]
    rw [hl] at hscan
    exact bare_of_startsLink (scanRefLine_spells hscan) (stopsAt_dropWhile _ t)
      ((skipInline_suffix t).trans ht)

end Parsing

/-- The canonical text of a relation, whatever its endpoints are, is read back as that relation if
all four ids are bare words. If no id that is drawn is the table of an endpoint, so that both lead
nowhere, then it is read back only if they are. -/
theorem parse_relation_iff {σ : Type} {source : IdSource σ} (hs : source.Total) (st : σ)
    {r : Relation} (hn : ∀ n ∈ r.name, PlainName n) :
    (r.source.Bare → r.target.Bare → r.RereadAlone source st) ∧
      (source.Avoids r.source.table → source.Avoids r.target.table →
        r.RereadAlone source st → r.source.Bare ∧ r.target.Bare) :=
  ⟨parse_relation_bare hs st hn, bare_of_rereadAlone hs st hn⟩

/-- A relation to a table whose name was quoted where it was written. -/
def quotedEnd : Relation where
  id := "rel_1"
  source := ⟨"my table", "id"⟩
  target := ⟨"b", "c"⟩
  cardinality := .manyToOne

theorem parse_relation_iff_quotedEnd :
    IdSource.counting.Total ∧ (∀ n ∈ quotedEnd.name, PlainName n) ∧
      IdSource.counting.Avoids quotedEnd.source.table ∧
      IdSource.counting.Avoids quotedEnd.target.table ∧
      parse IdSource.counting 1 "Ref: \x60my table\x60.id > b.c" =
        ⟨some { relations := [quotedEnd] }, []⟩ ∧
      parse IdSource.counting 2 (relation quotedEnd) =
        ⟨some {}, [.errorAt ⟨2, 5⟩ "Expected relation endpoint"]⟩ ∧
      ¬ quotedEnd.RereadAlone IdSource.counting 2 := by
  have hid : ∀ ref : String, '_' ∉ ref.toList → IdSource.counting.Avoids ref := by
    rintro ref hu kind n id _ hd rfl
    rw [IdSource.counting_draw] at hd
    obtain rfl := (Prod.mk.inj (Except.ok.inj hd)).1
    exact hu (by simp [numberedId])
  have hs := IdSource.counting_total
  have hn : ∀ n ∈ quotedEnd.name, PlainName n := by decide
  have hsource := hid quotedEnd.source.table (by decide)
  have htarget := hid quotedEnd.target.table (by decide)
  refine ⟨hs, hn, hsource, htarget, by decide +kernel, by decide +kernel, fun h => ?_⟩
  exact absurd ((parse_relation_iff hs 2 hn).2 hsource htarget h).1 (by decide)

end Dbml
