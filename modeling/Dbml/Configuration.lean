import Dbml.Text.Integer
import Dbml.Text.Printable
import Dbml.Text.Split
import Dbml.Text.Uppercase

/-!
# Configuration

The service is configured by four variables, each with a default: the origins that may call it,
how much it logs, and the two parts of the address where it listens.
-/
namespace Dbml

open Text

/-- The items of a list that is written with commas, without white space around them
(`_split_list`). Empty items are left out. -/
def listItems (s : String) : List String :=
  ((splitAt ',' s.toList).map trim).filterMap fun part =>
    if part.isEmpty then none else some (String.ofList part)

/-- What is configured: `CORS_ORIGINS`, `LOG_LEVEL`, `HOST` and `PORT`. -/
structure Configuration where
  origins : List String
  logLevel : String
  host : String
  portNumber : Int
  deriving DecidableEq, Repr

/-- A text for `portNumber` that is not read as an integer, and why. -/
structure UnreadablePort where
  text : String
  fault : IntegerFault
  deriving DecidableEq, Repr

/-- How the error is worded. Of what is shown of the text, at most 200 characters are kept. -/
def UnreadablePort.message (e : UnreadablePort) : String :=
  match e.fault with
  | .malformed =>
    "invalid literal for int() with base 10: " ++ String.ofList ((display e.text).toList.take 200)
  | .tooLong digits => overLimit (": value has " ++ toString digits ++ " digits")

/-- The configuration that variables give. -/
def Configuration.load (env : String → Option String) :
    Except UnreadablePort Configuration :=
  let portText := (env "DBSTUDIO_PORT").getD "8000"
  match readInt portText with
  | .error fault => .error ⟨portText, fault⟩
  | .ok n => .ok {
      origins := listItems ((env "DBSTUDIO_CORS_ORIGINS").getD
        "http://localhost:5173,http://localhost:3000")
      logLevel := uppercase ((env "DBSTUDIO_LOG_LEVEL").getD "INFO")
      host := (env "DBSTUDIO_HOST").getD "0.0.0.0"
      portNumber := n }

end Dbml
