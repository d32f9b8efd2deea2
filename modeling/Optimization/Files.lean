import Optimization.Fault
import Optimization.Keyed
import Optimization.Store

/-!
# Files

A tree of directories, links and files, with a working directory. A path is followed name by name
from the root or from the working directory: `..` leads back, and a link leads to where its own
path leads. A file has an identity apart from its names, of which it can have several.

* `Files.landing` : where a path leads;
* `Files.file?` : the file that a path names;
* `Files.opened` : the file that a path names, a new one if there is none yet.
-/

namespace Optimization

/-- A place in the tree: the names on the way from the root. -/
abbrev Place := List String

/-- What has a place, if it is no file. -/
inductive Branch
  | directory
  /-- A path that stands for another one. -/
  | link (target : String)

/-- Where a path leads. -/
inductive Landing
  | directory (place : Place)
  /-- A file, or nothing yet, in a directory that is there. -/
  | leaf (place : Place)

/-- Why a path leads nowhere. -/
inductive Stray
  /-- There is no directory at the place, while more names follow. -/
  | blocked (place : Place)
  /-- There are too many links on the way. -/
  | links

/-- A tree of files. -/
structure Files where
  /-- The directories and links, by their places. -/
  branches : List (Place × Branch) := []
  /-- The files, by their places. -/
  leaves : List (Place × Ref ByteArray) := []
  contents : Store ByteArray := {}
  /-- The working directory. -/
  here : Place := []
  /-- The path of the directory for temporary files. -/
  scratch : String := ""
  /-- Files at places have a content. -/
  sound : ∀ x ∈ leaves, (contents.get? x.2).isSome

namespace Files

/-- No files, and no directory but the root, where paths start. -/
def empty : Files := { sound := fun _ h => absurd h List.not_mem_nil }

/-! ### Paths -/

/-- The names of a path; a slash at its end asks for a directory. -/
def parts (path : String) : List String :=
  (path.splitToList (· == '/')).filter (!·.isEmpty) ++ if path.endsWith "/" then ["."] else []

/-- A path without the names that mean nothing. -/
def normal (path : String) : String :=
  let kept := "/".intercalate ((parts path).filter (· != "."))
  if path.startsWith "/" then "/" ++ kept else if kept.isEmpty then "." else kept

/-- The directory that a path starts from. -/
def origin (here : Place) (path : String) : Place := if path.startsWith "/" then [] else here

/-- Follow names from a directory, with another way to go on behind a link. A link that has the
last name is followed only if that is asked for. -/
def follow (branches : List (Place × Branch)) (through : Bool)
    (jump : Place → List String → Except Stray Landing) :
    Place → List String → Except Stray Landing
  | d, [] => pure (.directory d)
  | d, name :: rest =>
    if name = "." then follow branches through jump d rest
    else if name = ".." then follow branches through jump d.dropLast rest
    else
      let place := d ++ [name]
      match branches.lookup place with
      | some .directory => follow branches through jump place rest
      | some (.link target) =>
        if rest.isEmpty && !through then pure (.leaf place)
        else jump (origin d target) (parts target ++ rest)
      | none => if rest.isEmpty then pure (.leaf place) else throw (.blocked place)

/-- Follow names through at most so many links. -/
def walk (branches : List (Place × Branch)) (through : Bool) :
    Nat → Place → List String → Except Stray Landing
  | 0 => follow branches through fun _ _ => throw .links
  | n + 1 => follow branches through (walk branches through n)

/-- The greatest number of links that a path may lead through. -/
def linkLimit : Nat := 40

/-- Where a path leads; the empty one leads nowhere. -/
def landing (files : Files) (through : Bool) (path : String) : Except Fault Landing :=
  if path.isEmpty then throw (.noSuchFile path)
  else
    match walk files.branches through linkLimit (origin files.here path) (parts path) with
    | .ok found => pure found
    | .error .links => throw (.tooManyLinks path)
    | .error (.blocked place) =>
      throw (if (files.leaves.lookup place).isSome then .notDirectory path else .noSuchFile path)

/-! ### What is there -/

/-- The file that a path names. -/
def file? (files : Files) (path : String) : Option (Ref ByteArray) :=
  match files.landing true path with
  | .ok (.leaf place) => files.leaves.lookup place
  | _ => none

/-- Something has the path. -/
def exists? (files : Files) (path : String) : Bool :=
  match files.landing true (normal path) with
  | .ok (.leaf place) => (files.leaves.lookup place).isSome
  | .ok (.directory _) => true
  | .error _ => false

/-- A file has the path. -/
def isFile (files : Files) (path : String) : Bool := (files.file? (normal path)).isSome

/-- Nothing has the place yet. -/
def isVacant (files : Files) (place : Place) : Bool :=
  (files.branches.lookup place).isNone && (files.leaves.lookup place).isNone

/-- Nothing has the path yet, and a file can be made there. -/
def isFree (files : Files) (path : String) : Bool :=
  match files.landing false path with
  | .ok (.leaf place) => files.isVacant place
  | _ => false

/-- The content of a file. -/
def content (files : Files) (file : Ref ByteArray) : ByteArray :=
  (files.contents.get? file).getD ByteArray.empty

/-- The content of the file that a path names. -/
def read (files : Files) (path : String) : Except Fault ByteArray := do
  match ← files.landing true path with
  | .directory _ => throw (.isDirectory path)
  | .leaf place =>
    match files.leaves.lookup place with
    | some file => pure (files.content file)
    | none => throw (.noSuchFile path)

/-- The names in the working directory, in order. -/
def names (files : Files) : List String :=
  let places := files.branches.map Prod.fst ++ files.leaves.map Prod.fst
  (places.filterMap fun place =>
    if place.dropLast == files.here then place.getLast? else none).mergeSort
      fun a b => !decide (b < a)

/-! ### Changes -/

/-- Give a file a content. -/
def setContent (files : Files) (file : Ref ByteArray) (content : ByteArray) : Files :=
  { files with
    contents := files.contents.put file content
    sound := fun x hx => (Store.isSome_get?_put content).trans (files.sound x hx) }

/-- A new file at a place, without content. -/
def create (files : Files) (place : Place) : Files :=
  { files with
    leaves := files.leaves ++ [(place, files.contents.next)]
    contents := files.contents.push ByteArray.empty
    sound := by
      intro x hx
      rcases List.mem_append.1 hx with hold | hnew
      · rw [Store.get?_push _ (files.sound x hold)]
        exact files.sound x hold
      · rw [List.mem_singleton.1 hnew, Store.get?_push_next]
        rfl }

/-- The tree without the file name at a place; the file lasts under its other names. -/
def without (files : Files) (place : Place) : Files :=
  { files with
    leaves := files.leaves.filter fun x => x.1 != place
    sound := fun x hx => files.sound x (List.mem_filter.1 hx).1 }

/-- The file at a path, a new one if there is none yet. -/
def opened (files : Files) (path : String) : Except Fault (Ref ByteArray × Files) := do
  match ← files.landing true path with
  | .directory _ => throw (.isDirectory path)
  | .leaf place =>
    match files.leaves.lookup place with
    | some file => pure (file, files)
    | none => pure (files.contents.next, files.create place)

/-- Write a file, which replaces its content. -/
def write (files : Files) (path : String) (content : ByteArray) : Except Fault Files := do
  let (file, files) ← files.opened path
  pure (files.setContent file content)

/-- Write at the end of a file. -/
def append (files : Files) (path : String) (content : ByteArray) : Except Fault Files := do
  let (file, files) ← files.opened path
  pure (files.setContent file (files.content file ++ content))

/-- Take a name away from a file, or a link away. -/
def remove (files : Files) (path : String) : Except Fault Files := do
  match ← files.landing false path with
  | .directory _ => throw (.isDirectory path)
  | .leaf place =>
    if (files.branches.lookup place).isSome then
      pure { files with branches := files.branches.filter fun x => x.1 != place }
    else if (files.leaves.lookup place).isSome then
      pure (files.without place)
    else throw (.noSuchFile path)

/-- Make a directory or a link where nothing is yet. -/
def put (files : Files) (path : String) (branch : Branch) : Files :=
  match files.landing false path with
  | .ok (.leaf place) =>
    if files.isVacant place then { files with branches := files.branches ++ [(place, branch)] }
    else files
  | _ => files

end Files

end Optimization
