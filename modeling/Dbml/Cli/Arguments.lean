import Dbml.Cli.Usage
import Dbml.Text.Integer
import Dbml.Text.Printable
import Dbml.Text.Split

/-!
# Arguments

How the arguments of a command line are taken apart. Flags may be abbreviated as long as they stay
distinct, short flags may stand in one argument, and after two dashes everything is an operand.
Arguments that are neither are left over, which is reported once everything else is in order.

Results:
* `takeOperands_length`: taking operands leaves fewer arguments.
-/
namespace Dbml.Cli

/-- Why a command line is not carried out. -/
inductive Refusal where
  /-- Help is asked for. -/
  | help (line : CommandLine)
  | error (line : CommandLine) (message : String)
  deriving DecidableEq, Repr

/-! ## Single arguments -/

/-- What an argument is. A flag may have text behind it, after an equals sign or, for short flags,
at once. -/
inductive Argument where
  | operand (text : String)
  | separator
  | flag (text : String) (flag : Flag) (name : String) (behind : Option String)
  | unknown (text : String)
  deriving DecidableEq, Repr

/-- The argument as it was given. -/
def Argument.text : Argument → String
  | operand text => text
  | separator => "--"
  | flag text _ _ _ => text
  | unknown text => text

/-- The argument as an operand. -/
def Argument.word? : Argument → Option String
  | operand text => some text
  | _ => none

def Argument.isOption : Argument → Bool
  | flag .. => true
  | unknown _ => true
  | _ => false

/-- The text before the first equals sign, and the text behind it if there is one. -/
def splitAtEquals (s : String) : String × Option String :=
  (Text.cut '=' s.toList).map String.ofList (·.map String.ofList)

/-- Whether an argument looks like a negative number, which is an operand. One newline after it is
overlooked. -/
def isNegativeNumber : List Char → Bool
  | '-' :: r =>
    let isDigit := fun c => (Text.digitValue? c).isSome
    match r.takeWhile isDigit, r.dropWhile isDigit with
    | _, '.' :: d :: t => isDigit d && Text.isOver (t.dropWhile isDigit)
    | digits, t => !digits.isEmpty && Text.isOver t
  | _ => false

/-- The flags that an argument may stand for, with their spellings and what is behind them. -/
def candidates (line : CommandLine) (arg : String) : List (Flag × String × Option String) :=
  match arg.toList with
  | '-' :: '-' :: _ =>
    let (name, behind) := splitAtEquals arg
    (line.spellings.filter fun s => name.toList.isPrefixOf s.1.toList).map fun s =>
      (s.2, s.1, behind)
  | '-' :: c :: r =>
    (line.spellings.filter fun s => s.1 == String.ofList ['-', c]).map fun s =>
      (s.2, s.1, some (String.ofList r))
  | _ => []

/-- What an argument before two dashes is. -/
def classify (line : CommandLine) (arg : String) : Except Refusal Argument :=
  match arg.toList with
  | '-' :: _ :: _ =>
    match line.spellings.lookup arg with
    | some f => .ok (.flag arg f arg none)
    | none =>
      let (name, behind) := splitAtEquals arg
      match behind.bind fun _ => line.spellings.lookup name with
      | some f => .ok (.flag arg f name behind)
      | none =>
        match candidates line arg with
        | [(f, name, behind)] => .ok (.flag arg f name behind)
        | [] =>
          if isNegativeNumber arg.toList || arg.toList.contains ' ' then .ok (.operand arg)
          else .ok (.unknown arg)
        | several => .error (.error line ("ambiguous option: " ++ arg ++ " could match "
            ++ ", ".intercalate (several.map (·.2.1))))
  | _ => .ok (.operand arg)

/-- What all arguments are. -/
def classifyAll (line : CommandLine) : List String → Except Refusal (List Argument)
  | [] => .ok []
  | arg :: args =>
    if arg = "--" then .ok (.separator :: args.map .operand)
    else do
      let a ← classify line arg
      let as ← classifyAll line args
      return a :: as

/-! ## Flags -/

/-- The refusal of text behind a flag that takes none. -/
def ignored (line : CommandLine) (f : Flag) (behind : String) : Refusal :=
  .error line ("argument " ++ "/".intercalate f.names ++ ": ignored explicit argument "
    ++ Text.display behind)

/-- The flags that stand in one argument: a first one, and the short ones whose letters stand
behind it. -/
def shortFlags (line : CommandLine) (f : Flag) : List Char → Except Refusal (List Flag)
  | [] => .error (ignored line f "")
  | c :: r =>
    match line.spellings.lookup (String.ofList ['-', c]) with
    | none => .error (ignored line f (String.ofList (c :: r)))
    | some g => if r.isEmpty then .ok [f, g] else (shortFlags line g r).map (f :: ·)

/-- The flags that an argument sets, given the first of them and how it is spelt. -/
def flagsOf (line : CommandLine) (f : Flag) (name : String) :
    Option String → Except Refusal (List Flag)
  | none => .ok [f]
  | some behind =>
    if name.toList.take 2 == ['-', '-'] then .error (ignored line f behind)
    else shortFlags line f behind.toList

/-! ## Whole command lines -/

/-- What is found on a command line. -/
structure Found where
  flags : List Flag := []
  /-- The operands, once they are complete. -/
  operands : Option (List String) := none
  left : List String := []
  deriving DecidableEq, Repr

/-- The operands among arguments. -/
def words (args : List Argument) : List String := args.filterMap Argument.word?

/-- Takes operands from the front of arguments among which no flags follow, or of those before the
next flag. All operands are taken at once. -/
def takeOperands (arity : Arity) (args : List Argument) : Option (List String × List Argument) :=
  match args.dropWhile (· == .separator) with
  | .operand word :: rest =>
    match arity with
    | .command => some (args.map Argument.text, [])
    | .many => some (words (args.takeWhile (!·.isOption)), args.dropWhile (!·.isOption))
    | .one => some ([word], rest.dropWhile (· == .separator))
  | _ => none

theorem takeOperands_length {arity : Arity} {args rest : List Argument} {ws : List String}
    (h : takeOperands arity args = some (ws, rest)) : rest.length < args.length := by
  have hd := (List.dropWhile_suffix (l := args) (· == Argument.separator)).length_le
  unfold takeOperands at h
  split at h
  · rename_i word r e
    rw [e] at hd
    simp only [List.length_cons] at hd
    split at h
    · obtain ⟨-, rfl⟩ := Prod.mk.inj (Option.some.inj h); simp only [List.length_nil]; omega
    · obtain ⟨-, rfl⟩ := Prod.mk.inj (Option.some.inj h)
      cases args with
      | nil => simp at e
      | cons a as =>
        have ha : a.isOption = false := by
          cases a with
          | operand => rfl
          | separator => rfl
          | flag => simp at e
          | unknown => simp at e
        have := (List.dropWhile_suffix (l := as) (fun a => !a.isOption)).length_le
        simp [ha]; omega
    · obtain ⟨-, rfl⟩ := Prod.mk.inj (Option.some.inj h)
      have := (List.dropWhile_suffix (l := r) (· == Argument.separator)).length_le
      omega
  · simp at h

/-- Goes through classified arguments: flags take effect one after another, operands where they
first stand. -/
def collect (line : CommandLine) (found : Found) (args : List Argument) : Except Refusal Found :=
  match args with
  | [] => .ok found
  | .flag _ f name behind :: rest =>
    match flagsOf line f name behind with
    | .error r => .error r
    | .ok flags =>
      if flags.contains .help then .error (.help line)
      else collect line { found with flags := found.flags ++ flags } rest
  | .unknown text :: rest => collect line { found with left := found.left ++ [text] } rest
  | a :: rest =>
    match _h : if found.operands.isNone then takeOperands line.arity (a :: rest) else none with
    | some (operands, rest) => collect line { found with operands := some operands } rest
    | none => collect line { found with left := found.left ++ [a.text] } rest
termination_by args.length
decreasing_by
  · exact Nat.lt_succ_self _
  · exact Nat.lt_succ_self _
  · split at _h
    · exact takeOperands_length _h
    · simp at _h
  · exact Nat.lt_succ_self _

/-- What is found on a command line that lacks nothing. -/
def CommandLine.read (line : CommandLine) (args : List String) :
    Except Refusal (List Flag × List String × List String) := do
  let found ← collect line {} (← classifyAll line args)
  match found.operands with
  | some operands => return (found.flags, operands, found.left)
  | none => .error (.error line ("the following arguments are required: " ++ line.operand))

/-! ## Requests -/

/-- What the command line asks for. -/
inductive Request where
  | check (files : List String)
  | format (file : String) (write : Bool)
  deriving DecidableEq, Repr

structure Invocation where
  verbose : Bool
  request : Request
  deriving DecidableEq, Repr

/-- The request that a command makes of its flags and operands. -/
def Command.request (flags : List Flag) (operands : List String) : Command → Request
  | check => .check operands
  | format => .format (operands.headD "") (flags.contains .write)

/-- The refusal of a word that names no command. -/
def noCommand (word : String) : Refusal :=
  .error mainLine ("argument command: invalid choice: " ++ Text.display word ++ " (choose from "
    ++ ", ".intercalate (commandNames.map fun c => Text.display c.1) ++ ")")

/-- What the arguments ask for. -/
def Invocation.read (args : List String) : Except Refusal Invocation := do
  let (mainFlags, words, mainLeft) ← mainLine.read args
  let word := words.headD ""
  match commandNames.lookup word with
  | none => .error (noCommand word)
  | some command =>
    let (flags, operands, left) ← command.line.read words.tail
    match mainLeft ++ left with
    | [] => return ⟨mainFlags.contains .verbose, command.request flags operands⟩
    | left => .error (.error mainLine ("unrecognized arguments: " ++ " ".intercalate left))

end Dbml.Cli
