import Dbml.Canonical
import Dbml.Interchange.Schema
import Dbml.Parse
import Dbml.Sample
import Dbml.Service.Target
import Dbml.Text.Uppercase

/-!
# The service

Other programs reach the library through five requests: to parse a text, to write the text of a
schema, to bring a text into canonical form, to get the sample document, and to ask whether the
service is up. Requests and replies are interchange values. Every request starts with a source of
ids in the same state.
-/
namespace Dbml.Service

/-- The requests that are answered. -/
inductive Route where
  | parse
  | generate
  | format
  | sample
  | health
  deriving DecidableEq, Repr

/-- The paths of the requests. -/
def routes : List (String × Route) :=
  [("/parse", .parse), ("/generate", .generate), ("/format", .format), ("/sample", .sample),
    ("/health", .health)]

/-- The method by which a request is made. -/
def Route.method : Route → String
  | parse | generate | format => "POST"
  | sample | health => "GET"

/-- An answer: a status with a body, or the issues found in the body of the request. -/
inductive Reply where
  | json (status : Nat) (body : Value)
  | unprocessable (issues : List Issue)
  deriving Repr

def Reply.status : Reply → Nat
  | json status _ => status
  | unprocessable _ => 422

/-- A body that only says what went wrong. -/
def detail (body : Value) : Value := .object [("detail", body)]

/-- A body with a text (`TextResponse`). -/
def textBody (text : String) : Value := .object [("text", .string text)]

/-- The body of a request as something with one field (`TextRequest`, `GenerateRequest`). Issues are
found below the body. -/
def readField {α : Type} (c : Codec α) (name : String) : Option Value → Checked α
  | none | some .null => .invalid [⟨[.field "body"], .missing⟩]
  | some v => (Codec.readObject (c.required name) v).under (.field "body")

/-- What is replied when a text was parsed (`ParseResponse`). -/
def parsedBody (p : Parsed) : Value := .object [
  ("schema_data", Codec.schema.optional.write p.schema),
  ("diagnostics", Codec.diagnostic.list.write p.diagnostics),
  ("error_count", .integer (Diagnostic.errorCount p.diagnostics))]

/-- How a refusal to bring a text into canonical form words a diagnostic. -/
def diagnosticLine (d : Diagnostic) : String :=
  toString d.line ++ ":" ++ toString d.column ++ ": " ++ d.message

/-- The reply to a text that is to be brought into canonical form (`format_text`). -/
def formatReply (p : Parsed) : Reply :=
  match p.schema with
  | some s => .json 200 (textBody (Canonical.schema s))
  | none => .json 400 (detail (.strings (p.diagnostics.map diagnosticLine)))

/-- Replies with what `f` makes of a request's body, or with its issues. -/
def Reply.ofChecked {α : Type} (f : α → Reply) : Checked α → Reply
  | .ok a => f a
  | .invalid issues => .unprocessable issues

section Routes

variable {σ : Type} (source : IdSource σ) (st : σ)

/-- The reply to a request (`parse`, `generate`, `format_text`, `sample`, `health`). -/
def Route.reply (body : Option Value) : Route → Reply
  | parse => .ofChecked (fun t => .json 200 (parsedBody (Dbml.parse source st t)))
      (readField .string "text" body)
  | generate => .ofChecked (fun s => .json 200 (textBody (Canonical.schema s)))
      (readField .schema "schema_data" body)
  | format => .ofChecked (fun t => formatReply (Dbml.parse source st t))
      (readField .string "text" body)
  | sample => .json 200 (textBody Dbml.sample)
  | health => .json 200 (.object [("status", .string "ok")])

/-- The reply to whatever is requested. The letter case of the method does not matter. -/
def respondFrom (method target : String) (body : Option Value) : Reply :=
  match routes.lookup (lookupPath target) with
  | none => .json 404 (detail (.string "Not Found"))
  | some route =>
    if route.method = Text.uppercase method then route.reply source st body
    else .json 405 (detail (.string "Method Not Allowed"))

end Routes

/-- The reply to whatever is requested, with ids numbered from one. -/
def respond (method target : String) (body : Option Value) : Reply :=
  respondFrom .sequential 1 method target body

/-- The name of an issue in a reply: other than elsewhere, a body that is no object is said to lack
attributes. -/
def issueName : IssueKind → String
  | .notObject => "model_attributes_type"
  | kind => kind.name

end Dbml.Service
