import Dbml.Text.Split

/-!
# Directories

The files that a command line may name: a tree of files and directories, and the directory in it
where the program works. Names in a path are separated by slashes, a dot stands for the directory
itself and two dots for the one above it. A path that starts with a slash starts at the root.

Of what lies around the working directory only the directories are known that every system has.

**Limits.** A tree knows no rights, is never full and has one user. So every file that can be read
can be written, as a whole: opening a file for writing, which empties it, and writing its new text
are one step that does not fail.

Results:
* `lookup_replace_self`, `lookup_replace_of_ne`: writing a file changes that file alone.
-/
namespace Dbml.Cli

/-- Why a file cannot be opened. -/
inductive FileError where
  | notFound
  | notDirectory
  | isDirectory
  | nameTooLong
  deriving DecidableEq, Repr

/-- How the error for a path is worded; the path is given as it is shown. -/
def FileError.message (shown : String) : FileError → String
  | notFound => "[Errno 2] No such file or directory: " ++ shown
  | notDirectory => "[Errno 20] Not a directory: " ++ shown
  | isDirectory => "[Errno 21] Is a directory: " ++ shown
  | nameTooLong => "[Errno 36] File name too long: " ++ shown

/-- What stands at a place. -/
inductive Entry where
  | file (bytes : ByteArray)
  | directory

instance : DecidableEq Entry
  | .file a, .file b =>
    match ByteArray.instDecidableEq a b with
    | isTrue h => isTrue (congrArg Entry.file h)
    | isFalse h => isFalse fun he => h (Entry.file.inj he)
  | .file _, .directory => isFalse nofun
  | .directory, .file _ => isFalse nofun
  | .directory, .directory => isTrue rfl

/-- A place in a tree: the names that lead there from the root. -/
abbrev Place := List String

/-- A tree of files, by their places. -/
structure Directory where
  entries : List (Place × Entry)

/-! ## Places -/

/-- The names in a path. -/
def pathNames (path : String) : List String := (Text.splitAt '/' path.toList).map String.ofList

/-- The place that one more name leads to, if it leads anywhere. -/
def Place.follow (place : Place) (name : String) : Place :=
  if name = "" ∨ name = "." then place
  else if name = ".." then place.dropLast
  else place ++ [name]

/-- The place of the working directory. Its last name cannot stand in a path, so that it is not
reached from above. -/
def home : Place := ["tmp", "/"]

/-- The directories that every system has, and its empty file. -/
def systemEntries : List (Place × Entry) :=
  ((["/bin", "/boot", "/dev", "/etc", "/home", "/lib", "/media", "/mnt", "/opt", "/proc", "/root",
    "/run", "/sbin", "/srv", "/sys", "/tmp", "/usr", "/usr/bin", "/usr/lib", "/usr/local",
    "/usr/local/bin", "/usr/local/lib", "/usr/sbin", "/usr/share", "/usr/src", "/var", "/var/cache",
    "/var/lib", "/var/log", "/var/tmp"]).map fun path => ((pathNames path).tail, .directory))
    ++ [(["dev", "null"], .file ByteArray.empty)]

/-- How many bytes a name may have. -/
def nameLimit : Nat := 255

/-- How many bytes a path may have. -/
def pathLimit : Nat := 4095

namespace Directory

/-- The tree whose working directory holds what stands at the given paths. -/
def ofPaths (entries : List (String × Entry)) : Directory where
  entries := entries.map (fun e => ((pathNames e.1).foldl Place.follow home, e.2))
    ++ (home, .directory) :: systemEntries

/-- What stands at a place. A place that only leads on to others is a directory. -/
def find? (d : Directory) (place : Place) : Option Entry :=
  match d.entries.lookup place with
  | some e => some e
  | none => if d.entries.any fun e => place.isPrefixOf e.1 then some .directory else none

/-- The place to which names lead from another one. -/
def walk (d : Directory) (place : Place) : List String → Except FileError Place
  | [] => .ok place
  | name :: names =>
    match d.find? place with
    | none => .error .notFound
    | some (.file _) => .error .notDirectory
    | some .directory =>
      if nameLimit < name.utf8ByteSize then .error .nameTooLong
      else d.walk (place.follow name) names

/-- The place to which a path leads. -/
def resolve (d : Directory) (path : String) : Except FileError Place :=
  if pathLimit < path.utf8ByteSize then .error .nameTooLong
  else match pathNames path with
    | [""] => .error .notFound
    | "" :: names => d.walk [] names
    | names => d.walk home names

/-- The content of the file to which a path leads. -/
def read (d : Directory) (path : String) : Except FileError ByteArray :=
  match d.resolve path with
  | .error e => .error e
  | .ok place =>
    match d.find? place with
    | none => .error .notFound
    | some .directory => .error .isDirectory
    | some (.file bytes) => .ok bytes

/-- The tree with a file's content replaced. -/
def replace (d : Directory) (place : Place) (bytes : ByteArray) : Directory where
  entries := d.entries.map fun e => if e.1 = place then (e.1, .file bytes) else e

/-- The tree with the content replaced of the file to which a path leads. -/
def write (d : Directory) (path : String) (bytes : ByteArray) : Directory :=
  match d.resolve path with
  | .error _ => d
  | .ok place => d.replace place bytes

/-- Other places keep what stands there. -/
theorem lookup_replace_of_ne {d : Directory} {place other : Place} {bytes : ByteArray}
    (h : other ≠ place) : (d.replace place bytes).entries.lookup other = d.entries.lookup other := by
  obtain ⟨entries⟩ := d
  simp only [replace]
  induction entries with
  | nil => rfl
  | cons e entries ih =>
    obtain ⟨p, x⟩ := e
    by_cases hp : p = place
    · have : (other == place) = false := by simpa using h
      simp [hp, List.lookup_cons, this, ih]
    · simp [hp, List.lookup_cons, ih]

/-- A file that is there holds what was written. -/
theorem lookup_replace_self {d : Directory} {place : Place} {bytes : ByteArray} {e : Entry}
    (h : d.entries.lookup place = some e) :
    (d.replace place bytes).entries.lookup place = some (.file bytes) := by
  obtain ⟨entries⟩ := d
  simp only [replace]
  induction entries with
  | nil => simp at h
  | cons x entries ih =>
    obtain ⟨p, y⟩ := x
    by_cases hp : p = place
    · simp [hp]
    · have hp' : (place == p) = false := by simpa using Ne.symm hp
      simp only [List.lookup_cons, hp'] at h
      simp [hp, List.lookup_cons, hp', ih h]

end Directory

end Dbml.Cli
