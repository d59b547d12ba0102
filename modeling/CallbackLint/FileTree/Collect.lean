import CallbackLint.FileTree
/-!
# Collecting source files

The Java files below a folder, in the order of their paths. Folders whose name is on the
ignore list are not entered, wherever they are; the name of the folder that the walk starts
from is not looked at. Links are passed over unless they are to be followed.

Trouble stays where it is: a folder that cannot be listed contributes nothing, and when the
filter fails on a file, the rest of that folder is given up and the walk goes on outside
it.
-/

namespace CallbackLint

/-- Why an entry could not be looked at. -/
inductive AccessFault where
  /-- Not allowed. -/
  | denied
  /-- Some other trouble of the file system. -/
  | system
deriving Repr, DecidableEq, Inhabited

/-- Why a walk cannot start. -/
inductive RootFault where
  /-- Nothing is at the place. -/
  | missing (place : Place)
  /-- Something else than a folder is at the place. -/
  | notFolder (place : Place)
deriving Repr, DecidableEq, Inhabited

/-- A place as text, relative to the root of the tree. -/
def Place.toString (place : Place) : String :=
  Path.toString { parts := place }

/-- What a walk reports when it cannot start. -/
def RootFault.message : RootFault → String
  | .missing place => "Root directory does not exist: " ++ Place.toString place
  | .notFolder place => "Root path is not a directory: " ++ Place.toString place

/-- How to walk: which folder names to ignore, which files to keep, and whether to follow
links. -/
structure Walk where
  ignored : List String
  keep : Place → Except AccessFault Bool := fun _ => .ok true
  followLinks : Bool := false

namespace Walk

/-- Build output, dependency caches, version control and editor folders. -/
def defaultIgnored : List String :=
  ["build", "Build", "builds", "dist", "out", "bin", "target", ".gradle", ".mvn", "node_modules",
    "vendor", "third_party", ".git", ".svn", ".hg", ".vscode", ".idea", "venv", ".venv",
    "__pycache__", ".cache", ".pytest_cache"]

/-- Whether a folder of this name is passed over. -/
def ignores (w : Walk) (name : String) : Bool :=
  w.ignored.contains name

mutual

/-- The files that a walk finds below the folder at `place`. -/
def below (w : Walk) (place : Place) : Entry → List Place
  | .folder _ listable es => if listable then among w place es else []
  | .file _ _ => []
  | .link _ _ => []
  | .special _ => []

/-- The files that a walk finds among the entries of the folder at `place`. -/
def among (w : Walk) (place : Place) : List Entry → List Place
  | [] => []
  | e :: es =>
    match e with
    | .folder n _ _ =>
      if w.ignores n then among w place es else below w (place ++ [n]) e ++ among w place es
    | .file n _ =>
      if Path.isJavaName n then
        match w.keep (place ++ [n]) with
        | .ok true => (place ++ [n]) :: among w place es
        | .ok false => among w place es
        | .error _ => []
      else among w place es
    | .link _ _ => among w place es
    | .special _ => among w place es

end

/-- Whether one place may come before another: name by name, the first difference
deciding, and a folder's own place before the places in it. -/
def notAfter : Place → Place → Bool
  | [], _ => true
  | _ :: _, [] => false
  | a :: as, b :: bs => if a == b then notAfter as bs else a < b

/-- The files that a walk finds below an entry, in order. -/
def collectBelow (w : Walk) (place : Place) (e : Entry) : List Place :=
  (w.below place e).mergeSort notAfter

/-- The files that a walk finds when it starts from the folder that `path` leads to in the
tree `root`. Links on the way to that folder are followed, and the files are placed under
the folder itself. -/
def collect (w : Walk) (root : Entry) (path : List String) : Except RootFault (List Place) :=
  let place := root.realPlace [] path
  match root.lookup place with
  | some (.folder n l es) =>
    let start := Entry.folder n l es
    .ok (w.collectBelow place
      (if w.followLinks then root.unlinked (root.linkCount + 1) place start else start))
  | some (.link _ _) => .error (.missing place)
  | some _ => .error (.notFolder place)
  | none => .error (.missing place)

end Walk

end CallbackLint
