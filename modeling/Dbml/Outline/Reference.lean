import Dbml.Outline.Fault
import Dbml.Schema.Basic
import Dbml.Text.LineEnd
import Dbml.Text.Word

/-!
# References

A reference connects two columns, each written as the name of a table, a dot and the name of a
column. More names may stand before these two, and are dropped. A reference to several columns at
once, in parentheses, is recognised but not kept.

Results:
* `readEndpoint_suffix`, `readSymbol?_suffix`, `readRefLine_suffix`: what is left is a suffix;
* `readRefLine_shorter`: a line of a reference block is not empty.
-/
namespace Dbml.Outline

open Text

/-- A column by the names that a document writes for its table and for itself. -/
structure ColumnName where
  table : String
  column : String
  deriving DecidableEq, Repr

/-- What stands where an endpoint is expected (the results of `_parse_endpoint`,
`COMPOSITE_ENDPOINT` among them). -/
inductive EndpointText where
  | named (name : ColumnName)
  /-- Several columns at once. -/
  | composite
  | malformed
  deriving DecidableEq, Repr

/-- A dot and the name after it. -/
def namePart? : List Char → Option (String × List Char)
  | '.' :: r =>
    let (name, t) := readIdentifier r
    if name.isEmpty then none else some (String.ofList name, t)
  | _ => none

theorem namePart?_progresses : Progresses namePart? := by
  intro s a t h
  unfold namePart? at h; split at h
  · rename_i r
    dsimp only at h; split at h
    · simp at h
    · obtain ⟨-, rfl⟩ := Prod.mk.inj (Option.some.inj h)
      exact .of_suffix_cons _ (readIdentifier_suffix r)
  · simp at h

/-- The endpoint whose names were read, given the text after them: it must not go on with a dot, and
it takes two names (a part of `_parse_endpoint`). -/
def endpointOfNames (names : List String) (r : List Char) : EndpointText × List Char :=
  match r with
  | '.' :: '(' :: t => (.composite, '(' :: t)
  | '.' :: t => (.malformed, (readIdentifier t).2)
  | _ =>
    match names.reverse with
    | column :: table :: _ => (.named ⟨table, column⟩, r)
    | _ => (.malformed, r)

theorem endpointOfNames_suffix (names : List String) (r : List Char) :
    (endpointOfNames names r).2 <:+ r := by
  unfold endpointOfNames; split
  · exact List.suffix_cons _ _
  · exact (readIdentifier_suffix _).trans (List.suffix_cons _ _)
  · split <;> exact List.suffix_rfl

/-- What stands at the front, where an endpoint is expected, and the text after it
(`_parse_endpoint`). -/
def readEndpoint (s : List Char) : EndpointText × List Char :=
  match s with
  | '(' :: _ => (.composite, s)
  | _ =>
    let (name, r) := readIdentifier s
    if name.isEmpty then (.malformed, r)
    else
      let (names, t) := many namePart? namePart?_progresses r
      endpointOfNames (String.ofList name :: names) t

theorem readEndpoint_suffix (s : List Char) : (readEndpoint s).2 <:+ s := by
  unfold readEndpoint; split
  · exact List.suffix_rfl
  · dsimp only; split
    · exact readIdentifier_suffix s
    · exact (endpointOfNames_suffix _ _).trans ((many_suffix _).trans (readIdentifier_suffix s))

/-- The symbol that says how many rows a relation connects (`_parse_ref_symbol`, `REF_SYMBOLS`). -/
def readSymbol? : List Char → Option (Cardinality × List Char)
  | '<' :: '>' :: r => some (.manyToMany, r)
  | '<' :: r => some (.oneToMany, r)
  | '>' :: r => some (.manyToOne, r)
  | '-' :: r => some (.oneToOne, r)
  | _ => none

theorem readSymbol?_suffix {s r : List Char} {k : Cardinality} (h : readSymbol? s = some (k, r)) :
    r <:+ s := by
  unfold readSymbol? at h
  split at h <;> simp only [Option.some.injEq, Prod.mk.injEq, reduceCtorEq] at h <;>
    obtain ⟨-, rfl⟩ := h
  · exact (List.suffix_cons _ _).trans (List.suffix_cons _ _)
  all_goals exact List.suffix_cons _ _

/-! ## References inside the settings of a column -/

/-- A reference from the column that it is written at. -/
structure InlineRef where
  cardinality : Cardinality
  target : ColumnName
  deriving DecidableEq, Repr

/-- The reference in the settings of a column, given the text after the word that introduces it, and
the text where reading it ended (`_parse_inline_ref`). -/
def readInlineRef (s : List Char) : Option InlineRef × List Char :=
  let s := match s with
    | ':' :: r => skipInline r
    | _ => s
  match readSymbol? s with
  | none => (none, s)
  | some (cardinality, r) =>
    match readEndpoint (skipInline r) with
    | (.named target, t) => (some ⟨cardinality, target⟩, t)
    | (_, t) => (none, t)

theorem readInlineRef_suffix (s : List Char) : (readInlineRef s).2 <:+ s := by
  have h : ∀ s : List Char, (match s with | ':' :: r => skipInline r | _ => s) <:+ s := by
    intro s; split
    · exact (skipInline_suffix _).trans (List.suffix_cons _ _)
    · exact List.suffix_rfl
  unfold readInlineRef
  dsimp only
  refine List.IsSuffix.trans ?_ (h s)
  split
  · exact List.suffix_rfl
  · rename_i k r hk
    have he := (readEndpoint_suffix (skipInline r)).trans
      ((skipInline_suffix r).trans (readSymbol?_suffix hk))
    split <;> (rename_i e; rw [e] at he; exact he)

/-! ## Lines of a reference statement -/

/-- Two columns that a line of a reference statement connects. -/
structure Link where
  source : ColumnName
  cardinality : Cardinality
  target : ColumnName
  deriving DecidableEq, Repr

/-- What a line of a reference statement holds. -/
inductive RefLine where
  | link (link : Link)
  /-- A line with an endpoint of several columns. -/
  | composite
  | fault (fault : Fault)
  deriving DecidableEq, Repr

/-- What a line of a reference statement holds, and the text where reading it ended (a part of
`_parse_ref_line`). -/
def scanRefLine (s : List Char) : RefLine × List Char :=
  match readEndpoint (skipInline s) with
  | (.composite, r) => (.composite, r)
  | (.malformed, r) => (.fault ⟨.noEndpoint, r⟩, r)
  | (.named source, r) =>
    match readSymbol? (skipInline r) with
    | none => (.fault ⟨.noRelationSymbol, skipInline r⟩, skipInline r)
    | some (cardinality, t) =>
      match readEndpoint (skipInline t) with
      | (.composite, u) => (.composite, u)
      | (.malformed, u) => (.fault ⟨.noEndpoint, u⟩, u)
      | (.named target, u) => (.link ⟨source, cardinality, target⟩, u)

theorem scanRefLine_suffix (s : List Char) : (scanRefLine s).2 <:+ s := by
  have h := (readEndpoint_suffix (skipInline s)).trans (skipInline_suffix s)
  unfold scanRefLine
  split
  · rename_i e; rw [e] at h; exact h
  · rename_i e; rw [e] at h; exact h
  · rename_i source r e
    rw [e] at h
    have hi := (skipInline_suffix r).trans h
    split
    · exact hi
    · rename_i k t hk
      have ht := (readEndpoint_suffix (skipInline t)).trans
        ((skipInline_suffix t).trans ((readSymbol?_suffix hk).trans hi))
      split <;> (rename_i e'; rw [e'] at ht; exact ht)

/-- A line of a reference statement and the text after the line (`_parse_ref_line`). -/
def readRefLine (s : List Char) : RefLine × List Char := (scanRefLine s).map id dropLine

theorem readRefLine_suffix (s : List Char) : (readRefLine s).2 <:+ s :=
  (dropLine_suffix _).trans (scanRefLine_suffix s)

theorem readRefLine_shorter {c : Char} {s : List Char} (hc : c ≠ '}') :
    Shorter (readRefLine (c :: s)).2 (c :: s) :=
  dropLine_of_suffix_shorter hc (scanRefLine_suffix _)

end Dbml.Outline
