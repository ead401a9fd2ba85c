/-
The command line — files.

Commands reach files through a few operations, so that they can be run on the
files of a machine or on a tree of files that is a value.  Such a tree stands
for one folder: its files and the folders in it, whether they hold a file or
not.  A path must not leave it.
-/
import Bracework.Text.Utf8

namespace Bracework.CommandLine

/-- How a command reaches files.  Writing a file and making a folder, in one that is
there, tell whether they worked. -/
structure Files (m : Type → Type) where
  read : String → m (Option String)
  isThere : String → m Bool
  isFolder : String → m Bool
  write : String → String → m Bool
  makeFolder : String → m Bool

/-- The path of something in a folder. -/
def inFolder (folder name : String) : String := folder ++ "/" ++ name

/-! ## Paths -/

/-- The names that a path consists of. -/
def pathNames (path : String) : List String := (cutAt '/' path.toList).map String.ofList

/-- The names of a path that lead somewhere; an empty one in front stands for the top. -/
def pathParts (path : String) : List String :=
  let parts := (pathNames path).filter fun name => name != "" && name != "."
  if path.toList.head? == some '/' then "" :: parts else parts

/-- The path with the given parts. -/
def pathOfParts (parts : List String) : String :=
  if parts = [""] then "/" else "/".intercalate parts

/-- Whether the last name of a path is a single dot; slashes behind it do not count. -/
def endsInDot (path : String) : Bool :=
  ((pathNames path).filter (· != "")).getLast? == some "."

/-! ## Making folders -/

namespace Files

variable {m : Type → Type} [Monad m]

/-- Makes a folder unless it is there. -/
def ensureFolder (files : Files m) (path : String) : m Bool := do
  if ← files.makeFolder path then return true else files.isFolder path

/-- Makes a folder, given by the parts of its path from the last to the first, and
those it lies in as far as that takes. -/
def ensureParts (files : Files m) : List String → m Bool
  | [] => return true
  | name :: above => do
      let path := pathOfParts (name :: above).reverse
      if ← files.ensureFolder path then return true
      else if ← files.ensureParts above then files.ensureFolder path
      else return false

/-- Makes the folder that a path leads to and those it lies in.  A dot cannot be made:
a path that ends in one must lead to a folder once those above are there. -/
def ensureFolders (files : Files m) (path : String) : m Bool := do
  let parts := (pathParts path).reverse
  if endsInDot path then
    if ← files.isFolder path then return true
    else if ← files.ensureParts parts.tail then files.isFolder path
    else return false
  else files.ensureParts parts

end Files

/-! ## Trees -/

/-- A place in a tree: the names from the top down. -/
abbrev Location : Type := List String

/-- A tree of files.  The folders that a file lies in need not be listed. -/
structure FileTree where
  files : List (Location × String) := []
  folders : List Location := []
deriving DecidableEq, Repr

namespace FileTree

/-- Whether a place is a folder. -/
def isFolder (t : FileTree) (place : Location) : Bool :=
  place.isEmpty || t.folders.contains place ||
    t.files.any fun (file, _) => place.isPrefixOf file && file != place

def isFile (t : FileTree) (place : Location) : Bool := (t.files.lookup place).isSome

/-- Goes from a place to another by one name. -/
def go (place : Location) (name : String) : Option Location :=
  if name == "" || name == "." then some place
  else if name == ".." then (if place.isEmpty then none else some place.dropLast)
  else some (place ++ [name])

/-- Goes on from a place if that is a folder. -/
def step (t : FileTree) (place : Location) (name : String) : Option Location :=
  if t.isFolder place then go place name else none

/-- The place that a path leads to, whether there is something or not. -/
def locate (t : FileTree) (path : String) : Option Location :=
  match path.toList with
  | [] => none
  | '/' :: _ => none
  | _ => (pathNames path).foldlM t.step []

/-- Gives a place a content. -/
def place (place : Location) (content : String) :
    List (Location × String) → List (Location × String)
  | [] => [(place, content)]
  | (p, c) :: rest =>
      if p = place then (p, content) :: rest else (p, c) :: FileTree.place place content rest

/-- Reads the file that a path leads to. -/
def read (t : FileTree) (path : String) : Option String := do t.files.lookup (← t.locate path)

/-- Whether a path leads to a folder. -/
def leadsToFolder (t : FileTree) (path : String) : Bool := (t.locate path).any t.isFolder

/-- Whether a path leads to something. -/
def isThere (t : FileTree) (path : String) : Bool :=
  (t.locate path).any fun p => t.isFolder p || t.isFile p

/-- Writes a file into a folder that is there. -/
def write (t : FileTree) (path content : String) : Option FileTree := do
  let p ← t.locate path
  if t.isFolder p then none else some { t with files := FileTree.place p content t.files }

/-- Makes a folder in a folder that is there; nothing may be there in its place. -/
def makeFolder (t : FileTree) (path : String) : Option FileTree := do
  let p ← t.locate path
  if t.isFolder p || t.isFile p then none else some { t with folders := t.folders ++ [p] }

/-- The tree of some files. -/
def ofFiles (files : List (String × String)) : FileTree where
  files := files.foldl (fun placed (path, content) =>
    FileTree.place (pathParts path) content placed) []

/-- The files of a tree by path. -/
def toFiles (t : FileTree) : List (String × String) :=
  t.files.map fun (p, content) => ("/".intercalate p, content)

end FileTree

/-- Changes the state if there is a new one, and tells whether there is. -/
def settle {σ : Type} (next : Option σ) : StateM σ Bool :=
  match next with
  | some s => do set s; return true
  | none => return false

/-- The files of a tree. -/
def FileTree.access : Files (StateM FileTree) where
  read path := return (← get).read path
  isThere path := return (← get).isThere path
  isFolder path := return (← get).leadsToFolder path
  write path content := do settle ((← get).write path content)
  makeFolder path := do settle ((← get).makeFolder path)

end Bracework.CommandLine
