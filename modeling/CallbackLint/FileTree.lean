import CallbackLint.Path
import CallbackLint.Text.Utf8
/-!
# File trees

A file system as a tree: files with their bytes, folders, symbolic links that hold the text
of the path they lead to, and special entries such as pipes, which are neither files nor
folders. A place in the tree is the list of names that leads to it from the root.

`lookup` goes down by name and follows no link. `realPlace` follows links on the way, as
far as there is something to follow: a name that does not exist is kept as it is, and a
link that leads back to itself is left unresolved. `find?` walks along a path instead: every
step must start in a folder that is there, and a link that leads nowhere ends the walk.
-/

namespace CallbackLint

/-- The names that lead from the root of a file tree to an entry. -/
abbrev Place := List String

/-- An entry of a file tree. -/
inductive Entry where
  | file (name : String) (content : Bytes)
  /-- A folder; one that is not listable does not show what is in it. -/
  | folder (name : String) (listable : Bool) (entries : List Entry)
  | link (name : String) (target : String)
  | special (name : String)
deriving Inhabited

namespace Entry

/-- The name of an entry in its folder. -/
def name : Entry → String
  | .file n _ => n
  | .folder n _ _ => n
  | .link n _ => n
  | .special n => n

/-- The entries of a folder; nothing else has any. -/
def entries : Entry → List Entry
  | .folder _ _ es => es
  | _ => []

/-- An empty folder. -/
def emptyFolder (name : String) : Entry :=
  .folder name true []

/-- The entry of the given name in a list. -/
def named? (es : List Entry) (name : String) : Option Entry :=
  es.find? (fun e => e.name == name)

/-- The entry at a place, no link being followed. -/
def lookup (root : Entry) : Place → Option Entry
  | [] => some root
  | n :: ns =>
    match named? root.entries n with
    | some e => e.lookup ns
    | none => none

/-- The list with `e` in place of the entry of the same name, or at the end. -/
def put (e : Entry) : List Entry → List Entry
  | [] => [e]
  | d :: ds => if d.name == e.name then e :: ds else d :: put e ds

/-- The tree with `make name` put at the given place, whose last part is `name`; folders on
the way are made as needed, and a folder that is already there is kept. -/
def insert (root : Entry) (make : String → Entry) : Place → Entry
  | [] => root
  | n :: ns =>
    match root with
    | .folder name listable es =>
      match ns with
      | [] =>
        match make n, named? es n with
        | .folder _ _ _, some (.folder _ _ _) => root
        | e, _ => .folder name listable (put e es)
      | _ :: _ =>
        .folder name listable (put (((named? es n).getD (emptyFolder n)).insert make ns) es)
    | e => e

mutual

/-- The number of links in a tree. -/
def linkCount : Entry → Nat
  | .file _ _ => 0
  | .folder _ _ es => linkCountAll es
  | .link _ _ => 1
  | .special _ => 0

/-- The number of links in a list of trees. -/
def linkCountAll : List Entry → Nat
  | [] => 0
  | e :: es => linkCount e + linkCountAll es

end

/-- Goes on from the place `done`, which no link leads away from, along the given names. The
result is the place reached and whether all links on the way could be followed. The links
being followed are `active`; meeting one of them again stops the walk there. -/
def follow (root : Entry) (active : List Place) (hops : Nat) (done : Place) :
    List String → Place × Bool
  | [] => (done, true)
  | n :: ns =>
    if n == ".." then follow root active hops done.dropLast ns
    else
      match root.lookup (done ++ [n]) with
      | some (.link _ target) =>
        if active.contains (done ++ [n]) then (done ++ n :: ns, false)
        else
          match hops with
          | 0 => (done ++ n :: ns, false)
          | h + 1 =>
            match follow root ((done ++ [n]) :: active) h done (Path.partsOf target) with
            | (place, true) => follow root active (h + 1) place ns
            | (place, false) => (place ++ ns, false)
      | _ => follow root active hops (done ++ [n]) ns
termination_by ns => (hops, ns.length)

/-- The place that a path leads to when it is read from the place `base` and links are
followed. -/
def realPlace (root : Entry) (base : Place) (path : List String) : Place :=
  (follow root [] root.linkCount base path).1

/-- The place that a path leads to from `done` when it is walked along step by step, `hops`
links deep at most: each step, one up included, must start in a folder that is there. -/
def reach? (root : Entry) (hops : Nat) (done : Place) : List String → Option Place
  | [] => some done
  | n :: ns =>
    match root.lookup done with
    | some (.folder _ _ _) =>
      if n == ".." then reach? root hops done.dropLast ns
      else
        match root.lookup (done ++ [n]) with
        | some (.link _ target) =>
          match hops with
          | 0 => none
          | h + 1 =>
            match reach? root h done (Path.partsOf target) with
            | some place => reach? root (h + 1) place ns
            | none => none
        | some _ => reach? root hops (done ++ [n]) ns
        | none => none
    | _ => none
termination_by ns => (hops, ns.length)

/-- The entry that a path leads to from the place `base`, with the place it is at. -/
def find? (root : Entry) (base : Place) (path : List String) : Option (Place × Entry) :=
  match root.reach? root.linkCount base path with
  | some place => (root.lookup place).map (place, ·)
  | none => none

/-- The content of the file that a path leads to. -/
def read? (root : Entry) (path : List String) : Option Bytes :=
  match root.find? [] path with
  | some (_, .file _ content) => some content
  | _ => none

/-- The same entry under another name. -/
def rename (name : String) : Entry → Entry
  | .file _ c => .file name c
  | .folder _ l es => .folder name l es
  | .link _ t => .link name t
  | .special _ => .special name

mutual

/-- The tree with every link replaced by what `f` makes of its place and its target. -/
def mapLinks (f : Place → String → String → Entry) (place : Place) : Entry → Entry
  | .file n c => .file n c
  | .folder n l es => .folder n l (mapLinksAll f place es)
  | .link n t => f place n t
  | .special n => .special n

/-- `mapLinks` on the entries of the folder at `place`. -/
def mapLinksAll (f : Place → String → String → Entry) (place : Place) : List Entry → List Entry
  | [] => []
  | e :: es =>
    (match e with
    | .folder n _ _ => mapLinks f (place ++ [n]) e
    | _ => mapLinks f place e) :: mapLinksAll f place es

end

/-- The folder or file at `place` with the links in it replaced by what they lead to, at
most `hops` links deep. A link that leads nowhere becomes a special entry. -/
def unlinked (root : Entry) : Nat → Place → Entry → Entry
  | 0, _, e => e
  | hops + 1, place, e =>
    e.mapLinks (fun base n target =>
      match root.find? base (Path.partsOf target) with
      | some (real, found) => (unlinked root hops real found).rename n
      | none => .special n) place

end Entry

end CallbackLint
