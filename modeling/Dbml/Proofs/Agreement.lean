import Dbml.Proofs.Commands
import Dbml.Proofs.Exchange
import Dbml.Proofs.Reports
import Dbml.Service

/-!
# Service and command line agree

A text can be parsed, brought into canonical form and checked through the service and through the
command line. Whichever way is taken, it is parsed alike: what one says of a text, the others say,
given that their sources of ids start in the same state.

A schema goes out to other programs and comes back between parsing a text and writing the text of
its schema. It survives that, so the detour gives the text that the direct way gives.

Results:
* `post_parse`, `post_format`, `post_generate`: the replies to the requests;
* `entrances_agree`: how they fit together, and with what the commands print.
-/
namespace Dbml

open Text Service

namespace Service

variable {σ : Type} (source : IdSource σ) (st : σ)

/-! ## Requests -/

/-- The reply to a body that is posted. -/
def post (target : String) (body : Value) : Reply := respondFrom source st "POST" target (some body)

theorem textBody_injective : Function.Injective textBody := by
  intro a b h
  simpa [textBody] using h

variable {source st}

/-- What is posted to a path with a route that takes it. -/
theorem post_of_route {target : String} {route : Route} (hpath : lookupPath target = target)
    (hroute : routes.lookup target = some route) (hpost : route.method = "POST") (body : Value) :
    post source st target body = route.reply source st (some body) := by
  have hupper : uppercase "POST" = "POST" := by decide +kernel
  unfold post respondFrom
  rw [hpath, hroute, hupper]
  exact if_pos hpost

/-- A body with the one field that is asked for. -/
theorem readField_written {α : Type} {c : Codec α} (h : c.Lawful) (name : String) (a : α) :
    readField c name (some (.object [(name, c.write a)])) = .ok a := by
  have hlookup : [(name, c.write a)].lookup name = some (c.write a) := List.lookup_cons_self
  rw [readField]
  · rw [Codec.readObject, Codec.required_written h hlookup, Checked.under_ok]
  · exact Value.noConfusion

/-- A text is parsed on request. -/
theorem post_parse (text : String) :
    post source st "/parse" (textBody text) = .json 200 (parsedBody (parse source st text)) := by
  rw [post_of_route (by decide +kernel) rfl rfl, Route.reply]
  exact congrArg (Reply.ofChecked _) (readField_written Codec.string_lawful "text" text)

/-- A text is brought into canonical form on request, if it has a schema. -/
theorem post_format (text : String) :
    post source st "/format" (textBody text) = formatReply (parse source st text) := by
  rw [post_of_route (by decide +kernel) rfl rfl, Route.reply]
  exact congrArg (Reply.ofChecked _) (readField_written Codec.string_lawful "text" text)

/-- The text of a schema is written on request, if the body holds one. -/
theorem post_generate (s : Schema) :
    post source st "/generate" (.object [("schema_data", Codec.schema.write s)]) =
      .json 200 (textBody (Canonical.schema s)) := by
  rw [post_of_route (by decide +kernel) rfl rfl, Route.reply]
  exact congrArg (Reply.ofChecked _) (readField_written Codec.schema_lawful "schema_data" s)

/-- Without a schema there is no text. -/
theorem post_generate_null :
    post source st "/generate" (.object [("schema_data", .null)]) =
      .unprocessable [⟨[.field "body", .field "schema_data"], .notObject⟩] := by
  rw [post_of_route (by decide +kernel) rfl rfl]
  rfl

end Service

/-! ## All entrances -/

section

variable {σ : Type} {source : IdSource σ} (hs : source.Total) (st : σ) (text : String)
include hs

/-- Every diagnostic counts as an error. -/
theorem errorCount_diagnostics :
    Diagnostic.errorCount (parse source st text).diagnostics =
      (parse source st text).diagnostics.length :=
  List.countP_eq_length.2 fun d hd => beq_iff_eq.2 (diagnostics_oneLine hs st text d hd).1

/-- There is a schema unless the text is blank, and then one thing is wrong with it. -/
theorem parse_cases :
    (text.toList.all isBlank = false ∧ ∃ s, (parse source st text).schema = some s) ∨
      text.toList.all isBlank = true ∧ (parse source st text).schema = none ∧
        (parse source st text).diagnostics.length = 1 := by
  cases hb : text.toList.all isBlank with
  | false => exact .inl ⟨rfl, _, by rw [parse_of_total hs st hb]⟩
  | true => exact .inr ⟨rfl, by rw [parse_of_blank source st hb]; exact ⟨rfl, rfl⟩⟩

end

/-- Service and command line say the same of a text, whatever it is, when they draw the same ids.

A parse is replied to with a schema and diagnostics, which are errors of one line each and counted.
If the text is not blank, the schema is taken back and written as the text that the canonical form
is replied with. If it is blank, there is no schema, one thing is wrong, and there is no canonical
form and nothing to take back.

A file that holds the text, without carriage returns, is printed in that canonical form with a
newline behind it, or nothing is printed and the run fails. Checking it prints the diagnostics of the
reply, and fails just if there are some. -/
theorem entrances_agree {σ : Type} {source : IdSource σ} (hs : source.Total) (st : σ)
    (text : String) :
    ∃ data ds,
      post source st "/parse" (textBody text) = .json 200 (.object [("schema_data", data),
        ("diagnostics", Codec.diagnostic.list.write ds), ("error_count", .integer ds.length)]) ∧
      (∀ d ∈ ds, d.severity = .error ∧ '\n' ∉ d.message.toList) ∧
      (text.toList.all isBlank = false → ∃ canonical,
        post source st "/generate" (.object [("schema_data", data)]) =
            .json 200 (textBody canonical) ∧
          post source st "/format" (textBody text) = .json 200 (textBody canonical)) ∧
      (text.toList.all isBlank = true → data = .null ∧ ds.length = 1 ∧
        (post source st "/format" (textBody text)).status = 400 ∧
        (post source st "/generate" (.object [("schema_data", data)])).status = 422) ∧
      ∀ sources path, Cli.Sources.Holds sources path text → '\r' ∉ text.toList →
        ∀ args verbose,
          (Cli.Invocation.read args = .ok ⟨verbose, .format path false⟩ →
            (∀ canonical,
              post source st "/format" (textBody text) = .json 200 (textBody canonical) →
              (Cli.runFrom source st sources args).output.stdout = canonical ++ "\n" ∧
                (Cli.runFrom source st sources args).ending = .exit 0) ∧
            ((post source st "/format" (textBody text)).status = 400 →
              (Cli.runFrom source st sources args).output.stdout = "" ∧
                (Cli.runFrom source st sources args).ending = .exit 1)) ∧
          (Cli.Invocation.read args = .ok ⟨verbose, .check [path]⟩ →
            (Cli.runFrom source st sources args).output.stdout = Cli.diagnosticLines path ds ∧
              (Cli.runFrom source st sources args).ending =
                .exit (if ds.length > 0 then 1 else 0)) := by
  have hcount := errorCount_diagnostics hs st text
  refine ⟨Codec.schema.optional.write (parse source st text).schema,
    (parse source st text).diagnostics, ?_, diagnostics_oneLine hs st text, ?_, ?_, ?_⟩
  · rw [post_parse, parsedBody, hcount]
  · intro hb
    obtain ⟨-, s, hschema⟩ | ⟨hblank, -⟩ := parse_cases hs st text
    · rw [hschema, post_format, formatReply, hschema]
      exact ⟨Canonical.schema s, post_generate s, rfl⟩
    · rw [hb] at hblank; cases hblank
  · intro hb
    obtain ⟨hsome, -⟩ | ⟨-, hschema, hlength⟩ := parse_cases hs st text
    · rw [hb] at hsome; cases hsome
    · rw [hschema, post_format, formatReply, hschema]
      exact ⟨rfl, hlength, rfl, congrArg Reply.status post_generate_null⟩
  · intro sources path hholds hcarriage args verbose
    obtain ⟨stdin, hread⟩ := Cli.readText_of_holds st hholds hcarriage
    refine ⟨fun hargs => ?_, fun hargs => ?_⟩
    · rw [Cli.runFrom, hargs]
      dsimp only
      rw [post_format, formatReply]
      obtain ⟨-, s, hschema⟩ | ⟨-, hschema, -⟩ := parse_cases hs st text
      · rw [hschema]
        refine ⟨fun canonical hreply => ?_, fun hstatus =>
          absurd (show (200 : Nat) = 400 from hstatus) (by decide)⟩
        obtain rfl := textBody_injective (Reply.json.inj hreply).2
        exact Cli.format_of_schema verbose hread hschema
      · rw [hschema]
        exact ⟨fun canonical hreply => absurd (Reply.json.inj hreply).1 (by decide),
          fun _ => Cli.format_of_no_schema verbose hread hschema⟩
    · rw [Cli.runFrom, hargs, ← hcount]
      exact Cli.check_of_text verbose hread

/-- A text with a column that lacks its type, and with a relation of the other column to itself. -/
def unfinishedDraft : String := "Table a \x7b\n  id int [pk]\n  name\n\x7d\nRef: a.id > a.id\n"

/-- A single file with that text. -/
def draftFile : Cli.Sources where
  file path := if path = "a.dbml" then .ok unfinishedDraft.toUTF8 else .error .notFound
  stdin := ByteArray.empty

theorem entrances_agree_unfinishedDraft :
    IdSource.counting.Total ∧ Cli.Sources.Holds draftFile "a.dbml" unfinishedDraft ∧
      '\r' ∉ unfinishedDraft.toList ∧
      Cli.Invocation.read ["format", "a.dbml"] = .ok ⟨false, .format "a.dbml" false⟩ ∧
      Cli.Invocation.read ["check", "a.dbml"] = .ok ⟨false, .check ["a.dbml"]⟩ ∧
      ∃ data ds canonical,
        post .counting 1 "/parse" (textBody unfinishedDraft) =
          .json 200 (.object [("schema_data", data),
            ("diagnostics", Codec.diagnostic.list.write ds), ("error_count", .integer 1)]) ∧
        post .counting 1 "/generate" (.object [("schema_data", data)]) =
          .json 200 (textBody canonical) ∧
        post .counting 1 "/format" (textBody unfinishedDraft) = .json 200 (textBody canonical) ∧
        (Cli.runFrom .counting 1 draftFile ["format", "a.dbml"]).output.stdout =
          canonical ++ "\n" ∧
        (Cli.runFrom .counting 1 draftFile ["format", "a.dbml"]).ending = .exit 0 ∧
        (Cli.runFrom .counting 1 draftFile ["check", "a.dbml"]).output.stdout =
          "a.dbml:3:7: error: Expected type for column \"name\"\n" ∧
        (Cli.runFrom .counting 1 draftFile ["check", "a.dbml"]).ending = .exit 1 := by
  have hholds : Cli.Sources.Holds draftFile "a.dbml" unfinishedDraft := by
    unfold Cli.Sources.Holds
    rw [if_neg (by decide)]
    exact ⟨by decide, rfl⟩
  have hcarriage : '\r' ∉ unfinishedDraft.toList := by decide +kernel
  have hblank : unfinishedDraft.toList.all isBlank = false := by decide +kernel
  have hformat : Cli.Invocation.read ["format", "a.dbml"] = .ok ⟨false, .format "a.dbml" false⟩ :=
    Cli.Invocation.read_format (by decide)
  have hcheck : Cli.Invocation.read ["check", "a.dbml"] = .ok ⟨false, .check ["a.dbml"]⟩ :=
    Cli.Invocation.read_check (by decide)
  have hdiagnostics : (parse .counting 1 unfinishedDraft).diagnostics =
      [.errorAt ⟨3, 7⟩ "Expected type for column \"name\""] := by decide +kernel
  obtain ⟨data, ds, hparse, -, hwritten, -, hcommands⟩ :=
    entrances_agree IdSource.counting_total 1 unfinishedDraft
  obtain ⟨canonical, hgenerate, hreply⟩ := hwritten hblank
  obtain rfl : ds = [.errorAt ⟨3, 7⟩ "Expected type for column \"name\""] := by
    have hbody := (Reply.json.inj (hparse.symm.trans (post_parse unfinishedDraft))).2
    simp only [parsedBody, Value.object.injEq, List.cons.injEq, Prod.mk.injEq] at hbody
    rw [← hdiagnostics]
    exact (Codec.list_lawful Codec.diagnostic_lawful).write_injective hbody.2.1.2
  have hcommand := hcommands draftFile "a.dbml" hholds hcarriage
  obtain ⟨hprinted, hended⟩ := ((hcommand _ _).1 hformat).1 canonical hreply
  obtain ⟨hreported, hfailed⟩ := (hcommand _ _).2 hcheck
  exact ⟨IdSource.counting_total, hholds, hcarriage, hformat, hcheck, data, _, canonical, hparse,
    hgenerate, hreply, hprinted, hended, hreported.trans (by decide +kernel), hfailed⟩

end Dbml
