import Dbml.Proofs.Commands
import Dbml.Proofs.Supply

/-!
# Files after a run

A run reads files and writes at most one: the one that it brings into canonical form in place. That
file is written when all else has succeeded, so a run that fails leaves every file as it was. Files
are checked one after another up to the first that cannot be opened; that run writes none.

A path is whatever a command line gives to a command: one that starts with a dash has to stand
behind two dashes, or to be spelt with its directory.

Results:
* `rewritten_write`: writing a file changes that file alone, and where paths lead;
* `format_inPlace`: bringing a file into canonical form in place, against printing it;
* `check_reports`: what is printed of several files, and how the run ends;
* `reports_of_total`: what is reported of a file does not depend on the files before it;
* `files_after_run`: the files and the output after a run.
-/
namespace Dbml.Cli

/-! ## Writing a file -/

namespace Directory

variable {d : Directory} {place : Place} {old : ByteArray}

theorem lookup_of_find?_file (h : d.find? place = some (.file old)) :
    d.entries.lookup place = some (.file old) := by
  unfold find? at h
  split at h
  · rename_i e he
    rw [he, h]
  · split at h <;> simp at h

/-- Replacing what a file holds changes what stands at its place, and nowhere else. -/
theorem find?_replace (h : d.find? place = some (.file old)) (bytes : ByteArray) (other : Place) :
    (d.replace place bytes).find? other =
      if other = place then some (.file bytes) else d.find? other := by
  by_cases hother : other = place
  · subst hother
    rw [if_pos rfl, find?, lookup_replace_self (lookup_of_find?_file h)]
  · have hplaces : (d.replace place bytes).entries.any (fun e => other.isPrefixOf e.1) =
        d.entries.any fun e => other.isPrefixOf e.1 := by
      simp only [replace, List.any_map]
      congr 1
      funext e
      dsimp only [Function.comp_apply]
      split <;> rfl
    rw [if_neg hother, find?, find?, lookup_replace_of_ne hother, hplaces]

/-- A file is no way to another place, before and after it is written, so paths lead where they
led. -/
theorem walk_replace (h : d.find? place = some (.file old)) (bytes : ByteArray)
    (names : List String) (start : Place) :
    (d.replace place bytes).walk start names = d.walk start names := by
  induction names generalizing start with
  | nil => rfl
  | cons name names ih =>
    rw [walk, walk, find?_replace h]
    by_cases hstart : start = place
    · subst hstart
      rw [if_pos rfl, h]
    · rw [if_neg hstart]
      simp only [ih]

theorem resolve_replace (h : d.find? place = some (.file old)) (bytes : ByteArray) (path : String) :
    (d.replace place bytes).resolve path = d.resolve path := by
  unfold resolve
  split
  · rfl
  · split
    · rfl
    · exact walk_replace h bytes _ _
    · exact walk_replace h bytes _ _

/-- A path to a file that can be read leads to the place of that file. -/
theorem exists_place_of_read {path : String} (h : d.read path = .ok old) :
    ∃ place, d.resolve path = .ok place ∧ d.find? place = some (.file old) := by
  unfold read at h
  split at h
  · simp at h
  · rename_i place hplace
    refine ⟨place, hplace, ?_⟩
    split at h
    · simp at h
    · simp at h
    · rename_i bytes hbytes
      rw [hbytes, Except.ok.inj h]

/-- A directory with a text in place of what the file at a path held: the path leads to a place
where the text is read, all other places keep what stands there, and all paths lead where they
led. -/
structure Rewritten (d : Directory) (path text : String) (after : Directory) : Prop where
  read : after.read path = .ok text.toUTF8
  elsewhere : ∃ place, d.resolve path = .ok place ∧
    ∀ other, other ≠ place → after.find? other = d.find? other
  resolve : ∀ other, after.resolve other = d.resolve other

/-- Writing a file changes that file alone. -/
theorem rewritten_write {path : String} (h : d.read path = .ok old) (text : String) :
    d.Rewritten path text (d.write path text.toUTF8) := by
  obtain ⟨place, hplace, hfile⟩ := exists_place_of_read h
  have hwrite : d.write path text.toUTF8 = d.replace place text.toUTF8 := by
    rw [write, hplace]
  rw [hwrite]
  refine ⟨?_, ⟨place, hplace, fun other hother => ?_⟩, resolve_replace hfile _⟩
  · rw [Directory.read, resolve_replace hfile, hplace]
    simp only [find?_replace hfile, if_true]
  · rw [find?_replace hfile, if_neg hother]

end Directory

/-! ## Formatting -/

variable {σ : Type} {source : IdSource σ} {sources : Sources} {st : State σ} {path : String}

theorem ReadError.ending_ne_exit_zero (e : ReadError) (path : String) :
    (e.outcome path).ending ≠ .exit 0 := by
  cases e <;> exact nofun

theorem ReadError.write_none (e : ReadError) (path : String) : (e.outcome path).write = none := by
  cases e <;> rfl

/-- A file that a text is read from can be opened. -/
theorem exists_file_of_readText {st' : State σ} {text : String} (hpath : path ≠ "-")
    (h : readText sources st path = (.ok text, st')) : ∃ bytes, sources.file path = .ok bytes := by
  unfold readText at h
  rw [if_neg hpath] at h
  split at h
  · simp at h
  · split at h
    · rename_i bytes hfile
      exact ⟨bytes, hfile⟩
    · simp at h

theorem stderr_append (a b : Output) : (a ++ b).stderr = a.stderr ++ b.stderr := rfl

/-- What a run that brings a file into canonical form in place gives, when the run that prints it
succeeds: the text that is printed goes to the file. -/
structure WritesBack (sources : Sources) (verbose : Bool) (path : String)
    (printed inPlace : Outcome) : Prop where
  succeeds : printed.ending = .exit 0
  ending : inPlace.ending = .exit 0
  stdout : inPlace.output.stdout = ""
  stderr : verbose = false → inPlace.output.stderr = printed.output.stderr
  write : inPlace.write = some (path, printed.output.stdout)
  file : ∃ bytes, sources.file path = .ok bytes

theorem format_printed_write (verbose : Bool) :
    (format source sources verbose st path false).write = none := by
  unfold format
  split
  · exact ReadError.write_none _ path
  · dsimp only
    split <;> rfl

/-- Standard input is printed in either case. -/
theorem format_dash (verbose : Bool) :
    format source sources verbose st "-" true = format source sources verbose st "-" false := by
  unfold format
  split <;> rfl

/-- Bringing a file into canonical form in place succeeds just if printing it does, and where both
fail they give the same. -/
theorem format_inPlace (verbose : Bool) (hpath : path ≠ "-") :
    WritesBack sources verbose path (format source sources verbose st path false)
        (format source sources verbose st path true) ∨
      (format source sources verbose st path false).ending ≠ .exit 0 ∧
        format source sources verbose st path true =
          format source sources verbose st path false := by
  cases hread : readText sources st path with
  | mk result st' =>
    cases result with
    | error e =>
      refine .inr ?_
      simp only [format, hread, and_true]
      exact e.ending_ne_exit_zero path
    | ok text =>
      cases hschema : (parse source st'.ids text).schema with
      | none =>
        refine .inr ?_
        rw [format_without verbose hread hschema, format_without verbose hread hschema]
        exact ⟨show Ending.exit 1 ≠ .exit 0 by decide, rfl⟩
      | some s =>
        rw [format_printed verbose hread hschema, format_rewritten verbose hread hschema hpath]
        refine .inl ⟨rfl, rfl, ?_, ?_, ?_, exists_file_of_readText hpath hread⟩
        · rw [stdout_append, stdout_formatLog, stdout_logLine, String.empty_append]
        · rintro rfl
          rw [stderr_append, stderr_append]
          congr 1
        · rw [stdout_append, stdout_formatLog, String.empty_append, Output.out]

/-! ## Checking -/

section Reports

/-- The text that is read from a path before any other path, if one is. -/
def Sources.text? (sources : Sources) (path : String) : Option String :=
  (readText sources ⟨(), sources.stdin⟩ path).1.toOption

/-- A path at which no file can be opened. -/
def Sources.Unopenable (sources : Sources) (path : String) : Prop :=
  path ≠ "-" ∧ '\x00' ∉ path.toList ∧ ∃ e, sources.file path = .error e

instance (sources : Sources) (path : String) : Decidable (sources.Unopenable path) :=
  match h : sources.file path with
  | .ok _ => isFalse fun hun => by
    obtain ⟨-, -, e, he⟩ := hun
    rw [h] at he
    cases he
  | .error e => decidable_of_iff (path ≠ "-" ∧ '\x00' ∉ path.toList)
    ⟨fun hpath => ⟨hpath.1, hpath.2, e, h⟩, fun hun => ⟨hun.1, hun.2.1⟩⟩

/-- The text that is read from a path behind other ones. Standard input holds nothing once it was
read. -/
def Sources.textBehind (sources : Sources) (before : List String) (path : String) : String :=
  if path = "-" ∧ "-" ∈ before then "" else (sources.text? path).getD ""

/-- The paths up to the first from which no text can be read. -/
def Sources.readable (sources : Sources) (paths : List String) : List String :=
  paths.takeWhile fun path => (sources.text? path).isSome

/-- The texts of the paths that are read behind other ones, each with its path. -/
def Sources.texts (sources : Sources) (before paths : List String) : List (String × String) :=
  (sources.readable paths).mapIdx fun i path =>
    (path, sources.textBehind (before ++ paths.take i) path)

/-- The diagnostics of texts that are parsed one after another, each with the path of its text. -/
def reports (source : IdSource σ) (ids : σ) :
    List (String × String) → List (String × List Diagnostic)
  | [] => []
  | (path, text) :: texts =>
    (path, (parse source ids text).diagnostics) ::
      reports source (parseWith source ids text).2 texts

/-- What is left of standard input behind paths that were read. -/
structure StdinBehind (sources : Sources) (before : List String) (stdin : ByteArray) : Prop where
  unread : "-" ∉ before → stdin = sources.stdin
  read : "-" ∈ before → stdin = ByteArray.empty

theorem Sources.texts_cons {before paths : List String} (h : (sources.text? path).isSome = true) :
    sources.texts before (path :: paths) =
      (path, sources.textBehind before path) :: sources.texts (before ++ [path]) paths := by
  have hreadable : sources.readable (path :: paths) = path :: sources.readable paths :=
    List.takeWhile_cons_of_pos h
  rw [Sources.texts, hreadable, List.mapIdx_cons]
  simp [Sources.texts]

theorem Sources.texts_cons_of_none {before paths : List String} (h : sources.text? path = none) :
    sources.texts before (path :: paths) = [] := by
  have hreadable : sources.readable (path :: paths) = [] :=
    List.takeWhile_cons_of_neg (by simp [h])
  rw [Sources.texts, hreadable, List.mapIdx_nil]

theorem Sources.Unopenable.readText_eq (h : sources.Unopenable path) (st : State σ) :
    ∃ e, readText sources st path = (.error (.file e), st) := by
  obtain ⟨hdash, hnull, e, he⟩ := h
  have hnull : path.toList.contains '\x00' = false := by simpa using hnull
  refine ⟨e, ?_⟩
  simp only [readText, if_neg hdash, hnull, he, Bool.false_eq_true, if_false]

theorem Sources.Unopenable.text?_eq_none (h : sources.Unopenable path) :
    sources.text? path = none := by
  obtain ⟨e, hread⟩ := h.readText_eq ⟨(), sources.stdin⟩
  rw [Sources.text?, hread]
  rfl

theorem decodeText_empty : decodeText ByteArray.empty = .ok "" := decodeText_toUTF8 ""

/-- Reading a file leaves standard input alone. -/
theorem readText_of_ne_dash (hdash : path ≠ "-") (st : State σ) :
    readText sources st path = ((readText sources ⟨(), sources.stdin⟩ path).1, st) := by
  unfold readText
  rw [if_neg hdash, if_neg hdash]
  split
  · rfl
  · split <;> rfl

theorem Sources.text?_spec (h : (sources.text? path).isSome = true) :
    (readText sources ⟨(), sources.stdin⟩ path).1 = .ok ((sources.text? path).getD "") := by
  unfold Sources.text? at h ⊢
  cases hread : (readText sources ⟨(), sources.stdin⟩ path).1 with
  | error e => rw [hread] at h; cases h
  | ok text => rfl

/-- A text is read from a path behind other ones, if one can be read from it at all. -/
theorem readText_behind {before : List String} (hstdin : StdinBehind sources before st.stdin)
    (h : (sources.text? path).isSome = true) :
    ∃ stdin, readText sources st path = (.ok (sources.textBehind before path), ⟨st.ids, stdin⟩) ∧
      StdinBehind sources (before ++ [path]) stdin := by
  have hspec := Sources.text?_spec h
  by_cases hdash : path = "-"
  · subst hdash
    refine ⟨ByteArray.empty, ?_, fun h => absurd (by simp) h, fun _ => rfl⟩
    have hdecode : decodeText sources.stdin = .ok ((sources.text? "-").getD "") := by
      rwa [readText, if_pos rfl] at hspec
    rw [readText, if_pos rfl]
    by_cases hbefore : "-" ∈ before
    · rw [hstdin.read hbefore, decodeText_empty, Sources.textBehind, if_pos ⟨rfl, hbefore⟩]
    · rw [hstdin.unread hbefore, hdecode, Sources.textBehind, if_neg fun h => hbefore h.2]
  · have hmem : "-" ∈ before ++ [path] ↔ "-" ∈ before := by simp [Ne.symm hdash]
    refine ⟨st.stdin, ?_, fun hn => hstdin.unread (hmem.not.1 hn),
      fun hm => hstdin.read (hmem.1 hm)⟩
    rw [readText_of_ne_dash hdash, hspec, Sources.textBehind, if_neg fun h => hdash h.1]

/-- What is wrong with a text does not depend on the ids that are drawn for it. -/
theorem diagnostics_of_total (hs : source.Total) (ids ids' : σ) (text : String) :
    (parse source ids text).diagnostics = (parse source ids' text).diagnostics := by
  cases hb : text.toList.all Text.isBlank with
  | true => rw [parse_of_blank source ids hb, parse_of_blank source ids' hb]
  | false => rw [parse_of_total hs ids hb, parse_of_total hs ids' hb]

/-- What is reported of a text is what is wrong with it alone, whatever was parsed before. -/
theorem reports_of_total (hs : source.Total) (ids ids' : σ) (texts : List (String × String)) :
    reports source ids texts = texts.map fun t => (t.1, (parse source ids' t.2).diagnostics) := by
  induction texts generalizing ids with
  | nil => rfl
  | cons t texts ih => rw [reports, ih, diagnostics_of_total hs ids ids', List.map_cons]

theorem errorCount_pos_iff (ds : List Diagnostic) :
    0 < Diagnostic.errorCount ds ↔ ∃ d ∈ ds, d.severity = .error := by
  rw [Diagnostic.errorCount, List.countP_pos_iff]
  simp

theorem check_write (verbose failed : Bool) (paths : List String) :
    (check source sources verbose st failed paths).write = none := by
  induction paths generalizing st failed with
  | nil => rfl
  | cons path paths ih =>
    unfold check
    split
    · exact ReadError.write_none _ path
    · exact ih _

/-- What is printed of several files, and how the run ends. The induction is on the paths that are
left: of those before them it is known whether one was reported with an error. -/
theorem check_reports (verbose : Bool) {paths before : List String} (st : State σ) (failed : Bool)
    (hstdin : StdinBehind sources before st.stdin)
    (h : ∀ path ∈ paths, (sources.text? path).isSome = true ∨ sources.Unopenable path) :
    (check source sources verbose st failed paths).output.stdout =
        String.join ((reports source st.ids (sources.texts before paths)).map fun r =>
          diagnosticLines r.1 r.2) ∧
      (check source sources verbose st failed paths).ending =
        .exit (if ∃ path ∈ paths, sources.Unopenable path then 2
          else if failed = true ∨ ∃ r ∈ reports source st.ids (sources.texts before paths),
            ∃ d ∈ r.2, d.severity = .error then 1 else 0) := by
  induction paths generalizing before st failed with
  | nil => cases failed <;> exact ⟨rfl, by simp [check, reports, Sources.texts, Sources.readable]⟩
  | cons path paths ih =>
    obtain ⟨hpath, hpaths⟩ := List.forall_mem_cons.1 h
    rcases hpath with hsome | hun
    · obtain ⟨stdin, hread, hnext⟩ := readText_behind hstdin hsome
      have hopens : ¬sources.Unopenable path := by
        intro hun
        rw [hun.text?_eq_none] at hsome
        cases hsome
      rw [check_cons verbose hread failed paths, Sources.texts_cons hsome]
      generalize sources.textBehind before path = text
      obtain ⟨hstdout, hending⟩ := ih (parseFile source ⟨st.ids, stdin⟩ text).2
        (failed || 0 < Diagnostic.errorCount (parse source st.ids text).diagnostics) hnext hpaths
      refine ⟨?_, ?_⟩
      · rw [stdout_after, hstdout, stdout_append, stdout_parseLog, String.empty_append, reports,
          List.map_cons, String.join_cons, Output.out]
        rfl
      · rw [Outcome.after, hending]
        simp only [List.mem_cons, exists_eq_or_imp, hopens, false_or, Bool.or_eq_true,
          decide_eq_true_eq, errorCount_pos_iff, or_assoc, reports]
        rfl
    · obtain ⟨e, hread⟩ := hun.readText_eq st
      rw [Sources.texts_cons_of_none hun.text?_eq_none]
      have hexists : ∃ p ∈ path :: paths, sources.Unopenable p := ⟨path, List.mem_cons_self, hun⟩
      rw [if_pos hexists]
      unfold check
      rw [hread]
      exact ⟨rfl, rfl⟩

end Reports

/-! ## Runs -/

section Runs

variable {ids : σ} {d : Directory} {stdin : ByteArray} {args : List String} {verbose : Bool}

/-- A run that writes nothing leaves the directory. -/
theorem runInFrom_of_write_none {o : Outcome} (h : runFrom source ids ⟨d.read, stdin⟩ args = o)
    (hwrite : o.write = none) : runInFrom source ids d stdin args = (o, d) := by
  simp only [runInFrom, h, hwrite]

theorem runInFrom_of_write {o : Outcome} {text : String}
    (h : runFrom source ids ⟨d.read, stdin⟩ args = o) (hwrite : o.write = some (path, text)) :
    runInFrom source ids d stdin args = (o, d.write path text.toUTF8) := by
  simp only [runInFrom, h, hwrite]

theorem runFrom_format {write : Bool}
    (h : Invocation.read args = .ok ⟨verbose, .format path write⟩) :
    runFrom source ids sources args =
      format source sources verbose ⟨ids, sources.stdin⟩ path write := by
  rw [runFrom, h]

theorem runFrom_check {paths : List String}
    (h : Invocation.read args = .ok ⟨verbose, .check paths⟩) :
    runFrom source ids sources args =
      check source sources verbose ⟨ids, sources.stdin⟩ false paths := by
  rw [runFrom, h]

end Runs

/-- Files and output after a run.

A file is brought into canonical form in place, or nothing is changed. The run ends like one that
prints the canonical form. If it succeeds, it prints nothing on standard output and reports the same
diagnostics, the file holds what would have been printed, and nothing else in the directory is
changed. If it does not, because there is no schema, no such file, no text in the file or no file at
the path, the directory is as it was.

The text of standard input is printed in either case, and no file is written.

Files are checked, each of them a text or at a path that cannot be opened: no file is written, the
diagnostics of the files before the first such path are printed in the order of the paths, standard
input being empty when it is read again, and the run ends with two if there is such a path, else
with one if an error was reported, else with zero. If no id is refused, what is reported of a file
is what is wrong with its text alone. -/
theorem files_after_run {σ : Type} (source : IdSource σ) (ids : σ) (d : Directory)
    (stdin : ByteArray) :
    (∀ verbose path printed inPlace, path ≠ "-" →
      Invocation.read printed = .ok ⟨verbose, .format path false⟩ →
      Invocation.read inPlace = .ok ⟨verbose, .format path true⟩ →
      let p := runInFrom source ids d stdin printed
      let r := runInFrom source ids d stdin inPlace
      p.2 = d ∧ r.1.ending = p.1.ending ∧
        (r.1.ending = .exit 0 → r.1.output.stdout = "" ∧
          (verbose = false → r.1.output.stderr = p.1.output.stderr) ∧
          d.Rewritten path p.1.output.stdout r.2) ∧
        (r.1.ending ≠ .exit 0 → r.2 = d)) ∧
      (∀ verbose printed inPlace,
        Invocation.read printed = .ok ⟨verbose, .format "-" false⟩ →
        Invocation.read inPlace = .ok ⟨verbose, .format "-" true⟩ →
        runInFrom source ids d stdin inPlace = runInFrom source ids d stdin printed ∧
          (runInFrom source ids d stdin inPlace).2 = d) ∧
      (∀ verbose paths args, Invocation.read args = .ok ⟨verbose, .check paths⟩ →
        let sources : Sources := ⟨d.read, stdin⟩
        (∀ path ∈ paths, (sources.text? path).isSome = true ∨ sources.Unopenable path) →
        let c := runInFrom source ids d stdin args
        let found := reports source ids (sources.texts [] paths)
        c.2 = d ∧
          c.1.output.stdout = String.join (found.map fun r => diagnosticLines r.1 r.2) ∧
          c.1.ending = .exit (if ∃ path ∈ paths, sources.Unopenable path then 2
            else if ∃ r ∈ found, ∃ e ∈ r.2, e.severity = .error then 1 else 0) ∧
          (source.Total → found =
            (sources.texts [] paths).map fun t => (t.1, (parse source ids t.2).diagnostics))) := by
  refine ⟨?_, ?_, ?_⟩
  · intro verbose path printed inPlace hpath hprinted hinPlace
    rw [runInFrom_of_write_none (runFrom_format hprinted) (format_printed_write verbose)]
    rcases format_inPlace verbose hpath with hwrites | ⟨hfails, hsame⟩
    · obtain ⟨old, hold⟩ := hwrites.file
      rw [runInFrom_of_write (runFrom_format hinPlace) hwrites.write]
      refine ⟨rfl, hwrites.ending.trans hwrites.succeeds.symm, fun _ => ?_, fun h => ?_⟩
      · exact ⟨hwrites.stdout, hwrites.stderr, Directory.rewritten_write hold _⟩
      · exact absurd hwrites.ending h
    · have hnone : (format source ⟨d.read, stdin⟩ verbose ⟨ids, stdin⟩ path true).write = none := by
        rw [hsame]
        exact format_printed_write verbose
      rw [runInFrom_of_write_none (runFrom_format hinPlace) hnone, hsame]
      exact ⟨rfl, rfl, fun h => absurd h hfails, fun _ => rfl⟩
  · intro verbose printed inPlace hprinted hinPlace
    have hinPlace : runFrom source ids ⟨d.read, stdin⟩ inPlace =
        format source ⟨d.read, stdin⟩ verbose ⟨ids, stdin⟩ "-" false :=
      (runFrom_format hinPlace).trans (format_dash verbose)
    rw [runInFrom_of_write_none hinPlace (format_printed_write verbose),
      runInFrom_of_write_none (runFrom_format hprinted) (format_printed_write verbose)]
    exact ⟨rfl, rfl⟩
  · intro verbose paths args hargs sources hpaths
    rw [runInFrom_of_write_none (runFrom_check hargs) (check_write verbose false paths)]
    have hstdin : StdinBehind sources [] stdin := ⟨fun _ => rfl, fun h => absurd h List.not_mem_nil⟩
    obtain ⟨hstdout, hending⟩ := check_reports verbose ⟨ids, stdin⟩ false hstdin hpaths
    refine ⟨rfl, hstdout, ?_, fun hs => reports_of_total hs ids ids _⟩
    simpa only [Bool.false_eq_true, false_or] using hending

/-- A text with a column that lacks its type. -/
def unfinishedTable : String := "table a\x7b\nid int [unique,pk]\nname\n\x7d"

/-- A directory that holds a file with that text, an empty file and a directory. -/
def shelf : Directory :=
  .ofPaths [("draft.dbml", .file unfinishedTable.toUTF8), ("empty.dbml", .file ByteArray.empty),
    ("old", .directory)]

/-- A file that is read, standard input twice, a directory, and a file that is read no more. -/
def shelfPaths : List String := ["draft.dbml", "-", "-", "old", "empty.dbml"]

/-- A file that is brought into canonical form, one that has none, and files that are checked up to
a directory. -/
theorem files_after_run_shelf :
    "draft.dbml" ≠ "-" ∧
      Invocation.read ["format", "draft.dbml"] = .ok ⟨false, .format "draft.dbml" false⟩ ∧
      Invocation.read ["format", "--write", "draft.dbml"] =
        .ok ⟨false, .format "draft.dbml" true⟩ ∧
      (runInFrom .counting 1 shelf "".toUTF8 ["format", "--write", "draft.dbml"]).1 =
        ⟨.err "draft.dbml:3:5: error: Expected type for column \"name\"\n", .exit 0,
          some ("draft.dbml", "Table a \x7b\n  id int [pk, unique]\n\x7d\n")⟩ ∧
      shelf.Rewritten "draft.dbml" "Table a \x7b\n  id int [pk, unique]\n\x7d\n"
        (runInFrom .counting 1 shelf "".toUTF8 ["format", "--write", "draft.dbml"]).2 ∧
      "empty.dbml" ≠ "-" ∧
      Invocation.read ["format", "empty.dbml"] = .ok ⟨false, .format "empty.dbml" false⟩ ∧
      Invocation.read ["format", "--write", "empty.dbml"] =
        .ok ⟨false, .format "empty.dbml" true⟩ ∧
      (runInFrom .counting 1 shelf "".toUTF8 ["format", "--write", "empty.dbml"]).1.ending =
        .exit 1 ∧
      (runInFrom .counting 1 shelf "".toUTF8 ["format", "--write", "empty.dbml"]).2 = shelf ∧
      Invocation.read ("check" :: shelfPaths) = .ok ⟨false, .check shelfPaths⟩ ∧
      (∀ path ∈ shelfPaths,
        ((⟨shelf.read, "Ref x".toUTF8⟩ : Sources).text? path).isSome = true ∨
          (⟨shelf.read, "Ref x".toUTF8⟩ : Sources).Unopenable path) ∧
      (runInFrom .counting 1 shelf "Ref x".toUTF8 ("check" :: shelfPaths)).1.output.stdout =
        "draft.dbml:3:5: error: Expected type for column \"name\"\n" ++
          "-:1:6: error: Expected \":\" or \"\x7b\" after Ref\n-:1:1: error: Empty input\n" ∧
      (runInFrom .counting 1 shelf "Ref x".toUTF8 ("check" :: shelfPaths)).1.ending =
        .exit 2 ∧
      IdSource.counting.Total ∧
      reports .counting 1 ((⟨shelf.read, "Ref x".toUTF8⟩ : Sources).texts [] shelfPaths) =
        [("draft.dbml", (parse .counting 1 unfinishedTable).diagnostics),
          ("-", (parse .counting 1 "Ref x").diagnostics),
          ("-", (parse .counting 1 "").diagnostics)] := by
  obtain ⟨hinPlace, -, -⟩ := files_after_run .counting 1 shelf "".toUTF8
  obtain ⟨-, -, hcheck⟩ := files_after_run .counting 1 shelf "Ref x".toUTF8
  have hdraft : Invocation.read ["format", "draft.dbml"] =
      .ok ⟨false, .format "draft.dbml" false⟩ := Invocation.read_format (by decide)
  have hdraft' : Invocation.read ["format", "--write", "draft.dbml"] =
      .ok ⟨false, .format "draft.dbml" true⟩ := Invocation.read_format_write (by decide)
  have hempty : Invocation.read ["format", "empty.dbml"] =
      .ok ⟨false, .format "empty.dbml" false⟩ := Invocation.read_format (by decide)
  have hempty' : Invocation.read ["format", "--write", "empty.dbml"] =
      .ok ⟨false, .format "empty.dbml" true⟩ := Invocation.read_format_write (by decide)
  have hshelf : Invocation.read ("check" :: shelfPaths) = .ok ⟨false, .check shelfPaths⟩ :=
    Invocation.read_check (by decide)
  have hpaths : ∀ path ∈ shelfPaths,
      ((⟨shelf.read, "Ref x".toUTF8⟩ : Sources).text? path).isSome = true ∨
        (⟨shelf.read, "Ref x".toUTF8⟩ : Sources).Unopenable path := by decide +kernel
  have hrun : (runInFrom .counting 1 shelf "".toUTF8 ["format", "--write", "draft.dbml"]).1 =
      ⟨.err "draft.dbml:3:5: error: Expected type for column \"name\"\n", .exit 0,
        some ("draft.dbml", "Table a \x7b\n  id int [pk, unique]\n\x7d\n")⟩ := by
    decide +kernel
  have hprints : (runInFrom .counting 1 shelf "".toUTF8
      ["format", "draft.dbml"]).1.output.stdout =
      "Table a \x7b\n  id int [pk, unique]\n\x7d\n" := by decide +kernel
  have hfails : (runInFrom .counting 1 shelf "".toUTF8
      ["format", "--write", "empty.dbml"]).1.ending = .exit 1 := by decide +kernel
  obtain ⟨-, -, hsucceeds, -⟩ := hinPlace _ _ _ _ (by decide) hdraft hdraft'
  obtain ⟨-, -, -, hkept⟩ := hinPlace _ _ _ _ (by decide) hempty hempty'
  obtain ⟨-, hstdout, hending, hfound⟩ := hcheck _ _ _ hshelf hpaths
  have hwritten := (hsucceeds (congrArg Outcome.ending hrun)).2.2
  rw [hprints] at hwritten
  refine ⟨by decide, hdraft, hdraft', hrun, hwritten, by decide, hempty, hempty', hfails,
    hkept (hfails ▸ by decide), hshelf, hpaths, hstdout.trans ?_, hending.trans ?_,
    IdSource.counting_total, (hfound IdSource.counting_total).trans ?_⟩
  · decide +kernel
  · decide +kernel
  · have htexts : (⟨shelf.read, "Ref x".toUTF8⟩ : Sources).texts [] shelfPaths =
        [("draft.dbml", unfinishedTable), ("-", "Ref x"), ("-", "")] := by decide +kernel
    rw [htexts]
    rfl

end Dbml.Cli
