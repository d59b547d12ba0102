/-!
# Syntax trees

A syntax tree is a tree of nodes that each carry a kind, a range of byte offsets into the
source, a flag that tells named nodes from punctuation, and the field under which the node
hangs below its parent. Nothing is assumed of a tree: kinds may be unknown, fields missing
or repeated, and ranges empty, inverted or past the end of the source. What the rest of the
library knows about a tree it asks through the accessors below.
-/

namespace CallbackLint

/-- A node of a syntax tree: its kind, the byte offsets at which it starts and stops,
whether it is named, its field in its parent, and its children in order. -/
inductive Node where
  | mk (kind : String) (start stop : Nat) (named : Bool) (field : Option String)
      (children : List Node)
deriving Repr, Inhabited

namespace Node

/-- What sort of syntax the node is. -/
def kind : Node → String
  | .mk k _ _ _ _ _ => k

/-- The offset of the first byte of the node. -/
def start : Node → Nat
  | .mk _ s _ _ _ _ => s

/-- The offset just past the last byte of the node. -/
def stop : Node → Nat
  | .mk _ _ e _ _ _ => e

/-- Whether the node is more than a keyword or a punctuation mark. -/
def named : Node → Bool
  | .mk _ _ _ n _ _ => n

/-- The role the node plays in its parent, if it has one. -/
def field : Node → Option String
  | .mk _ _ _ _ f _ => f

/-- All nodes directly below the node. -/
def children : Node → List Node
  | .mk _ _ _ _ _ cs => cs

/-- The same node in the role `f`. -/
def withField (f : Option String) : Node → Node
  | .mk k s e n _ cs => .mk k s e n f cs

/-- The named nodes directly below the node. -/
def namedChildren (n : Node) : List Node :=
  n.children.filter named

/-- The first child in the role `f`, named or not. -/
def child? (n : Node) (f : String) : Option Node :=
  n.children.find? (fun c => c.field == some f)

/-- All children in the role `f`. -/
def childrenIn (n : Node) (f : String) : List Node :=
  n.children.filter (fun c => c.field == some f)

/-- The first named child of one of the given kinds. -/
def firstOf? (n : Node) (kinds : List String) : Option Node :=
  n.namedChildren.find? (fun c => kinds.contains c.kind)

/-- Whether some child, named or not, is of the given kind. -/
def hasChild (n : Node) (kind : String) : Bool :=
  n.children.any (fun c => c.kind == kind)

/-- The node reached by following positions among the children downwards. -/
def at? (n : Node) : List Nat → Option Node
  | [] => some n
  | i :: is =>
    match n.children[i]? with
    | some c => c.at? is
    | none => none

/-- The kinds of declaration that introduce a type and can carry annotations and methods. -/
def typeKinds : List String :=
  ["class_declaration", "interface_declaration", "enum_declaration", "record_declaration"]

/-- The kinds of comment. -/
def commentKinds : List String :=
  ["line_comment", "block_comment"]

/-- Whether the node declares a type. -/
def isTypeDecl (n : Node) : Bool :=
  typeKinds.contains n.kind

/-- Whether the node is a comment. -/
def isComment (n : Node) : Bool :=
  commentKinds.contains n.kind

mutual

/-- The number of nodes of a tree, its root included. -/
def size : Node → Nat
  | .mk _ _ _ _ _ cs => 1 + sizeAll cs

/-- The number of nodes of a list of trees. -/
def sizeAll : List Node → Nat
  | [] => 0
  | n :: ns => size n + sizeAll ns

end

mutual

/-- The number of type declarations in a tree, its root included, whether or not they can
be reached through named nodes. -/
def typeCount : Node → Nat
  | .mk k _ _ _ _ cs => (if typeKinds.contains k then 1 else 0) + typeCountAll cs

/-- The number of type declarations in a list of trees. -/
def typeCountAll : List Node → Nat
  | [] => 0
  | n :: ns => typeCount n + typeCountAll ns

end

end Node

end CallbackLint
