import CallbackLint.Java.Grammar
import CallbackLint.Source
/-!
# Parsing Java

The tokens of a file without its comments are read by the grammar, and then the comments
are put back: a comment becomes a child of the smallest node that has tokens on both sides
of it. So a comment in front of a declaration is not part of the declaration, and one
between two of its tokens is.

Tokens that the grammar does not take end the reading. They are kept as one node of kind
`ERROR`, and the file is marked as having errors.
-/

namespace CallbackLint

namespace Node

mutual

/-- The tree with comments put in, all of which lie between tokens of the node. -/
def weave (comments : List Node) : Node → Node
  | .mk kind start stop named field cs => .mk kind start stop named field (weaveAll comments cs)

/-- A list of sibling nodes with comments put in: a comment inside a node goes into it, and
the others stand between the nodes. -/
def weaveAll (comments : List Node) : List Node → List Node
  | [] => comments
  | n :: ns =>
    comments.filter (fun c => c.start < n.start) ++
      weave (comments.filter (fun c => n.start ≤ c.start && c.start < n.stop)) n ::
      weaveAll (comments.filter (fun c => n.stop ≤ c.start)) ns

end

end Node

namespace Java

/-- The leaf of a token that no pattern took. -/
def Token.leaf (t : Token) : Node :=
  .mk t.text t.start t.stop (t.sort != .sign) none []

/-- The node of a comment. -/
def commentNode (t : Token) : Node :=
  .mk t.text t.start t.stop true none []

/-- The nodes that the tokens of a file make, and whether some tokens were left over. -/
def readProgram (ts : List Token) : List Node × Bool :=
  match Pattern.read Grammar.rule .program ts with
  | some (ns, []) => (ns, false)
  | some (ns, rest) => (ns ++ [Pattern.nodeAround "ERROR" (rest.map Token.leaf)], true)
  | none => ([Pattern.nodeAround "ERROR" (ts.map Token.leaf)], true)

/-- The syntax tree of a file, and whether it has errors. -/
def parse (src : Bytes) : Node × Bool :=
  let all := tokens src
  let comments := (all.filter (fun t => t.sort == .comment)).map commentNode
  let (ns, hasErrors) := readProgram (all.filter (fun t => t.sort != .comment))
  let children := Node.weaveAll comments ns
  let start := (children.head?.map Node.start).getD src.length
  (.mk "program" start src.length true none children, hasErrors)

end Java

/-- The file with the given bytes, parsed as Java. -/
def SourceFile.parse (path : Path) (bytes : Bytes) : SourceFile :=
  let (tree, hasErrors) := Java.parse bytes
  { path := path, bytes := bytes, tree := tree, hasErrors := hasErrors }

end CallbackLint
