import Mathlib.Data.List.TakeWhile
import Dbml.Cli.Run

/-!
# Commands on files

A command line without flags is a command and its operands. What a command prints on standard output
comes of the texts of its files alone: the log goes elsewhere.

Results:
* `Invocation.read_format`, `Invocation.read_format_write`, `Invocation.read_check`: the commands
  that a command line asks for;
* `readText_of_holds`: the text that a file holds is read from it;
* `format_of_schema`, `format_of_no_schema`, `check_of_text`: what the commands print, and how they
  end.
-/
namespace Dbml.Cli

/-! ## Arguments -/

theorem classify_operand (line : CommandLine) {arg : String}
    (h : arg.toList.head? = some '-' → arg = "-") : classify line arg = .ok (.operand arg) := by
  unfold classify
  split
  · rename_i e
    rw [e] at h
    rw [h rfl] at e
    cases e
  · rfl

theorem ne_dashes {arg : String} (h : arg.toList.head? = some '-' → arg = "-") : arg ≠ "--" := by
  rintro rfl
  exact absurd (h (by decide)) (by decide)

/-- Arguments without a dash in front, and the dash alone, are operands. -/
theorem classifyAll_operands (line : CommandLine) {args : List String}
    (h : ∀ arg ∈ args, arg.toList.head? = some '-' → arg = "-") :
    classifyAll line args = .ok (args.map .operand) := by
  induction args with
  | nil => rfl
  | cons arg args ih =>
    obtain ⟨ha, hargs⟩ := List.forall_mem_cons.1 h
    rw [classifyAll, if_neg (ne_dashes ha), classify_operand line ha, ih hargs]
    rfl

/-- Operands that are all taken at once are what is found, besides what was found before. -/
theorem collect_operands (line : CommandLine) (found : Found) {arg : String} {args : List Argument}
    {words : List String} (hfound : found.operands = none)
    (h : takeOperands line.arity (.operand arg :: args) = some (words, [])) :
    collect line found (.operand arg :: args) = .ok { found with operands := some words } := by
  have htake : (if found.operands.isNone then
      takeOperands line.arity (.operand arg :: args) else none) = some (words, []) := by
    rw [hfound]
    exact h
  rw [collect]
  · split
    · rename_i ws rest e
      obtain ⟨rfl, rfl⟩ := Prod.mk.inj (Option.some.inj (htake.symm.trans e))
      rw [collect]
    · rename_i e
      cases htake.symm.trans e
  · exact fun _ _ _ _ => Argument.noConfusion
  · exact fun _ => Argument.noConfusion

/-- A command line of operands alone, if it takes them all. -/
theorem CommandLine.read_operands {line : CommandLine} {arg : String} {args words : List String}
    (h : ∀ a ∈ arg :: args, a.toList.head? = some '-' → a = "-")
    (hwords : takeOperands line.arity ((arg :: args).map .operand) = some (words, [])) :
    line.read (arg :: args) = .ok ([], words, []) := by
  have hcollect := collect_operands line {} rfl hwords
  rw [← List.map_cons] at hcollect
  simp only [CommandLine.read, classifyAll_operands line h, bind, Except.bind, hcollect]
  rfl

/-- A command with what its own command line makes of the arguments behind it. -/
theorem Invocation.read_command {word : String} (command : Command) {args words : List String}
    {flags : List Flag} (hword : commandNames.lookup word = some command)
    (hmain : mainLine.read (word :: args) = .ok ([], word :: args, []))
    (hwords : command.line.read args = .ok (flags, words, [])) :
    Invocation.read (word :: args) = .ok ⟨false, command.request flags words⟩ := by
  simp only [Invocation.read, hmain, bind, Except.bind, List.headD_cons, hword, List.tail_cons,
    hwords]
  rfl

/-- A command with operands, none of which looks like a flag. -/
theorem Invocation.read_operands {word : String} (command : Command) {args words : List String}
    (hword : commandNames.lookup word = some command)
    (h : ∀ a ∈ word :: args, a.toList.head? = some '-' → a = "-")
    (hwords : command.line.read args = .ok ([], words, [])) :
    Invocation.read (word :: args) = .ok ⟨false, command.request [] words⟩ := by
  refine Invocation.read_command command hword (CommandLine.read_operands h ?_) hwords
  simp [takeOperands, mainLine, Argument.text, Function.comp_def]

/-- Operands among which no flag stands are all taken. -/
theorem takeOperands_many {arg : String} (args : List String) :
    takeOperands .many ((arg :: args).map .operand) = some (arg :: args, []) := by
  have hoperand : ∀ a ∈ (arg :: args).map Argument.operand, (!a.isOption) = true := by
    simp [Argument.isOption]
  have hwords : words ((arg :: args).map .operand) = arg :: args := by
    rw [words, List.filterMap_map]
    exact List.filterMap_some
  have hdrop : ((arg :: args).map Argument.operand).dropWhile (· == .separator) =
      .operand arg :: args.map .operand := rfl
  simp only [takeOperands, hdrop, List.takeWhile_eq_self_iff.2 hoperand,
    List.dropWhile_eq_nil_iff.2 hoperand, hwords]

/-- The command that brings one file into canonical form. -/
theorem Invocation.read_format {path : String} (h : path.toList.head? = some '-' → path = "-") :
    Invocation.read ["format", path] = .ok ⟨false, .format path false⟩ := by
  have hread : formatLine.read [path] = .ok ([], [path], []) :=
    CommandLine.read_operands (by simpa using h) rfl
  exact Invocation.read_operands .format rfl (by simpa using h) hread

/-- The command that brings one file into canonical form in place. -/
theorem Invocation.read_format_write {path : String}
    (h : path.toList.head? = some '-' → path = "-") :
    Invocation.read ["format", "--write", path] = .ok ⟨false, .format path true⟩ := by
  have hdashes := ne_dashes h
  have hmain : mainLine.read ["format", "--write", path] =
      .ok ([], ["format", "--write", path], []) := by
    have hargs : classifyAll mainLine ["format", "--write", path] =
        .ok [.operand "format", .unknown "--write", .operand path] := by
      simp only [classifyAll, hdashes, classify_operand mainLine h]
      rfl
    simp only [CommandLine.read, hargs, bind, Except.bind,
      collect_operands mainLine {} rfl rfl]
    rfl
  have hread : formatLine.read ["--write", path] = .ok ([.write], [path], []) := by
    have hargs : classifyAll formatLine ["--write", path] =
        .ok [.flag "--write" .write "--write" none, .operand path] := by
      simp only [classifyAll, hdashes, classify_operand formatLine h]
      rfl
    have hcollect : collect formatLine {} [.flag "--write" .write "--write" none, .operand path] =
        .ok { flags := [.write], operands := some [path] } := by
      rw [collect]
      exact collect_operands formatLine _ rfl rfl
    simp only [CommandLine.read, hargs, bind, Except.bind, hcollect]
    rfl
  exact Invocation.read_command .format rfl hmain hread

/-- The command that checks files. -/
theorem Invocation.read_check {path : String} {paths : List String}
    (h : ∀ p ∈ path :: paths, p.toList.head? = some '-' → p = "-") :
    Invocation.read ("check" :: path :: paths) = .ok ⟨false, .check (path :: paths)⟩ := by
  have hread : checkLine.read (path :: paths) = .ok ([], path :: paths, []) :=
    CommandLine.read_operands h (takeOperands_many paths)
  exact Invocation.read_operands .check rfl
    (List.forall_mem_cons.2 ⟨by decide, h⟩) hread

/-! ## Output -/

theorem stdout_append (a b : Output) : (a ++ b).stdout = a.stdout ++ b.stdout := rfl

theorem stdout_logLine (verbose : Bool) (source message : String) :
    (logLine verbose source message).stdout = "" := by
  cases verbose <;> rfl

/-- The log is not printed on standard output. -/
theorem stdout_parseLog (verbose : Bool) (text : String) (p : Parsed) :
    (parseLog verbose text p).stdout = "" := by
  unfold parseLog
  split
  · rfl
  · induction skippedLines text.toList with
    | nil => exact stdout_logLine verbose _ _
    | cons n ns ih =>
      dsimp only at ih
      rw [List.foldr_cons, stdout_append, stdout_logLine, ih]
      rfl

/-! ## Reading -/

/-- Text without carriage returns has the line ends that reading gives it. -/
theorem normalizeNewlines_of_not_mem {s : List Char} (h : '\r' ∉ s) : normalizeNewlines s = s := by
  induction s with
  | nil => rfl
  | cons c s ih =>
    simp only [List.mem_cons, not_or] at h
    rw [normalizeNewlines_cons (Ne.symm h.1), ih h.2]

/-- A path names a file, or standard input, that holds a text. -/
def Sources.Holds (sources : Sources) (path text : String) : Prop :=
  if path = "-" then sources.stdin = text.toUTF8
  else '\x00' ∉ path.toList ∧ sources.file path = .ok text.toUTF8

variable {σ : Type} {source : IdSource σ} {sources : Sources} {path text : String}

/-- The text that a file holds is read from it. -/
theorem readText_of_holds (ids : σ) (h : sources.Holds path text) (hr : '\r' ∉ text.toList) :
    ∃ stdin, readText sources ⟨ids, sources.stdin⟩ path = (.ok text, ⟨ids, stdin⟩) := by
  have hdecode : decodeText text.toUTF8 = .ok text := by
    rw [decodeText_toUTF8, normalizeNewlines_of_not_mem hr, String.ofList_toList]
  unfold Sources.Holds at h
  unfold readText
  split at h
  · rename_i hp
    rw [if_pos hp, h, hdecode]
    exact ⟨_, rfl⟩
  · rename_i hp
    have hnull : path.toList.contains '\x00' = false := by simpa using h.1
    rw [if_neg hp, hnull, h.2]
    refine ⟨sources.stdin, ?_⟩
    simp only [Bool.false_eq_true, if_false, hdecode]

/-! ## What the commands print -/

theorem stdout_after (o : Outcome) (before : Output) :
    (o.after before).output.stdout = before.stdout ++ o.output.stdout := rfl

/-- What is printed besides the canonical form, all of it on standard error. -/
def formatLog (verbose : Bool) (path text : String) (p : Parsed) (s : Schema) : Output :=
  parseLog verbose text p ++ .err (diagnosticLines path p.diagnostics) ++ generateLog verbose s

theorem stdout_formatLog (verbose : Bool) (path text : String) (p : Parsed) (s : Schema) :
    (formatLog verbose path text p s).stdout = "" := by
  rw [formatLog, stdout_append, stdout_append, stdout_parseLog, generateLog, stdout_logLine]
  rfl

section Commands

variable {st st' : State σ} (verbose : Bool) (h : readText sources st path = (.ok text, st'))
include h

theorem format_printed {s : Schema} (hs : (parse source st'.ids text).schema = some s) :
    format source sources verbose st path false =
      ⟨formatLog verbose path text (parse source st'.ids text) s ++
        .out (Canonical.schema s ++ "\n"), .exit 0, none⟩ := by
  have hparse : (parseFile source st' text).1 = parse source st'.ids text := rfl
  simp only [format, formatLog, h, hparse, hs, Bool.false_and, Bool.false_eq_true, if_false]

theorem format_rewritten {s : Schema} (hs : (parse source st'.ids text).schema = some s)
    (hpath : path ≠ "-") :
    format source sources verbose st path true =
      ⟨formatLog verbose path text (parse source st'.ids text) s ++
        logLine verbose "INFO dbstudio.cli" ("Rewrote " ++ path), .exit 0,
        some (path, Canonical.schema s ++ "\n")⟩ := by
  have hparse : (parseFile source st' text).1 = parse source st'.ids text := rfl
  have hdash : (path != "-") = true := by simpa using hpath
  simp only [format, formatLog, h, hparse, hs, hdash, Bool.and_self, if_true]

/-- Without a schema nothing is written. -/
theorem format_without (hs : (parse source st'.ids text).schema = none) (write : Bool) :
    format source sources verbose st path write =
      ⟨parseLog verbose text (parse source st'.ids text) ++
        .err (diagnosticLines path (parse source st'.ids text).diagnostics), .exit 1, none⟩ := by
  have hparse : (parseFile source st' text).1 = parse source st'.ids text := rfl
  simp only [format, h, hparse, hs]

/-- A text with a schema is printed in canonical form. -/
theorem format_of_schema {s : Schema} (hs : (parse source st'.ids text).schema = some s) :
    (format source sources verbose st path false).output.stdout = Canonical.schema s ++ "\n" ∧
      (format source sources verbose st path false).ending = .exit 0 := by
  rw [format_printed verbose h hs]
  refine ⟨?_, rfl⟩
  rw [stdout_append, stdout_formatLog, String.empty_append, Output.out]

/-- Of a text without a schema nothing is printed on standard output. -/
theorem format_of_no_schema (hs : (parse source st'.ids text).schema = none) :
    (format source sources verbose st path false).output.stdout = "" ∧
      (format source sources verbose st path false).ending = .exit 1 := by
  rw [format_without verbose h hs]
  exact ⟨by rw [stdout_append, stdout_parseLog]; rfl, rfl⟩

/-- A file that is read is reported before the files behind it. -/
theorem check_cons (failed : Bool) (paths : List String) :
    check source sources verbose st failed (path :: paths) =
      (check source sources verbose (parseFile source st' text).2
        (failed || 0 < Diagnostic.errorCount (parse source st'.ids text).diagnostics) paths).after
        (parseLog verbose text (parse source st'.ids text) ++
          .out (diagnosticLines path (parse source st'.ids text).diagnostics)) := by
  rw [check, h]
  rfl

/-- A single file is reported on, and whether an error was found is how the run ends. -/
theorem check_of_text :
    (check source sources verbose st false [path]).output.stdout =
        diagnosticLines path (parse source st'.ids text).diagnostics ∧
      (check source sources verbose st false [path]).ending =
        .exit (if Diagnostic.errorCount (parse source st'.ids text).diagnostics > 0
          then 1 else 0) := by
  rw [check_cons verbose h false []]
  refine ⟨?_, by simp [check, Outcome.after]⟩
  rw [stdout_after, stdout_append, stdout_parseLog, check, String.append_empty,
    String.empty_append, Output.out]

end Commands

end Dbml.Cli
