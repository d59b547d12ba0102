import CallbackLint.Java.Token
import CallbackLint.Tree
/-!
# Patterns over tokens

A grammar is written as data: a `Pattern` says which tokens may come next and which nodes
they make, and `Pattern.run` reads tokens by a pattern. Choice is ordered, so the first
alternative that fits is taken, and repetition takes as much as it can.

Expressions lean to the left: in `a.b.c` the receiver `a.b` is read before it is known to
be one. `chain` reads a first node and then, as long as one fits, a suffix that `wrap`s the
node read so far into a larger one.

Reading is bounded by a depth that each nested step lowers by one; `Pattern.depthFor` is
more than enough for a list of tokens, since every repetition consumes one and the nesting
of patterns between two tokens is limited by the grammar.
-/

namespace CallbackLint

namespace Java

/-- A pattern over tokens, where `P` are the names of the phrases that a grammar defines. -/
inductive Pattern (P : Type) where
  /-- Nothing. -/
  | nothing
  /-- The given word, as an unnamed leaf. -/
  | word (text : String)
  /-- The given word, as a named leaf of a kind. -/
  | wordAs (kind text : String)
  /-- Any word but the given ones, as a named leaf of a kind. -/
  | wordBut (kind : String) (excluded : List String)
  /-- Signs that follow each other without a gap, as one unnamed leaf. -/
  | signs (texts : List String)
  /-- A literal of one of the given kinds, as a named leaf of its kind. -/
  | literal (kinds : List String)
  /-- What a phrase of the grammar is made of. -/
  | phrase (p : P)
  /-- One after the other. -/
  | seq (first second : Pattern P)
  /-- The first that fits. -/
  | alt (first second : Pattern P)
  /-- As often as it fits. -/
  | many (p : Pattern P)
  /-- Nothing, where the given pattern does not fit. -/
  | unless (p : Pattern P)
  /-- A named node of a kind around what a pattern reads. -/
  | node (kind : String) (p : Pattern P)
  /-- What a pattern reads, in a role. -/
  | field (f : String) (p : Pattern P)
  /-- One node, and then one suffix around it. -/
  | after (first suffix : Pattern P)
  /-- One node, and then suffixes around it as long as one fits. -/
  | chain (first suffix : Pattern P)
  /-- Suffixes around the node read so far, as long as one fits. -/
  | grow (suffix : Pattern P)
  /-- A suffix: a node of a kind around the node read so far, put into a role, and what a
  pattern reads. Where kinds are listed, the node read so far has to be of one of them. -/
  | wrap (kind : String) (role : Option String) (kinds : List String) (p : Pattern P)
deriving Inhabited

namespace Pattern

variable {P : Type}

/-- Patterns one after the other. -/
def seqs : List (Pattern P) → Pattern P
  | [] => .nothing
  | [p] => p
  | p :: q :: ps => .seq p (seqs (q :: ps))

/-- The first of a list of patterns that fits. -/
def alts : List (Pattern P) → Pattern P
  | [] => .unless .nothing
  | [p] => p
  | p :: q :: ps => .alt p (alts (q :: ps))

/-- A pattern or nothing. -/
def opt (p : Pattern P) : Pattern P :=
  .alt p .nothing

/-- A pattern at least once. -/
def many1 (p : Pattern P) : Pattern P :=
  .seq p (.many p)

/-- One sign. -/
def sign (text : String) : Pattern P :=
  .signs [text]

/-- A pattern at least once, with a sign between each two. -/
def sep1 (separator : String) (p : Pattern P) : Pattern P :=
  .seq p (.many (.seq (sign separator) p))

/-- A pattern any number of times, with commas between. -/
def commas (p : Pattern P) : Pattern P :=
  opt (sep1 "," p)

/-- A leaf over some offsets. -/
def leaf (kind : String) (named : Bool) (start stop : Nat) : Node :=
  .mk kind start stop named none []

/-- A named node around others, from where the first starts to where the last stops. -/
def nodeAround (kind : String) (children : List Node) : Node :=
  .mk kind ((children.head?.map Node.start).getD 0) ((children.getLast?.map Node.stop).getD 0)
    true none children

/-- Reads signs that follow each other without a gap from an offset on; the result is where
they stop and what follows. -/
def readSigns : List String → Nat → List Token → Option (Nat × List Token)
  | [], offset, ts => some (offset, ts)
  | _ :: _, _, [] => none
  | text :: texts, offset, t :: ts =>
    if t.sort == .sign && t.text == text && t.start == offset then readSigns texts t.stop ts
    else none

/-- Reads tokens by a pattern, given the node read so far if there is one. The result is the
nodes made and the tokens left. -/
def run (grammar : P → Pattern P) :
    Nat → Pattern P → Option Node → List Token → Option (List Node × List Token)
  | 0, _, _, _ => none
  | depth + 1, p, soFar, ts =>
    match p with
    | .nothing => some ([], ts)
    | .word text =>
      match ts with
      | t :: rest =>
        if t.sort == .word && t.text == text then some ([leaf text false t.start t.stop], rest)
        else none
      | [] => none
    | .wordAs kind text =>
      match ts with
      | t :: rest =>
        if t.sort == .word && t.text == text then some ([leaf kind true t.start t.stop], rest)
        else none
      | [] => none
    | .wordBut kind excluded =>
      match ts with
      | t :: rest =>
        if t.sort == .word && !excluded.contains t.text then
          some ([leaf kind true t.start t.stop], rest)
        else none
      | [] => none
    | .signs texts =>
      match ts with
      | t :: _ =>
        match readSigns texts t.start ts with
        | some (stop, rest) => some ([leaf (String.join texts) false t.start stop], rest)
        | none => none
      | [] => none
    | .literal kinds =>
      match ts with
      | t :: rest =>
        if t.sort == .literal && kinds.contains t.text then
          some ([leaf t.text true t.start t.stop], rest)
        else none
      | [] => none
    | .phrase name => run grammar depth (grammar name) none ts
    | .seq first second =>
      match run grammar depth first none ts with
      | some (ns, rest) =>
        match run grammar depth second none rest with
        | some (ms, rest') => some (ns ++ ms, rest')
        | none => none
      | none => none
    | .alt first second =>
      match run grammar depth first soFar ts with
      | some r => some r
      | none => run grammar depth second soFar ts
    | .many q =>
      match run grammar depth q none ts with
      | some (ns, rest) =>
        if rest.length < ts.length then
          match run grammar depth (.many q) none rest with
          | some (ms, rest') => some (ns ++ ms, rest')
          | none => none
        else some ([], ts)
      | none => some ([], ts)
    | .unless q =>
      match run grammar depth q none ts with
      | some _ => none
      | none => some ([], ts)
    | .node kind q =>
      match run grammar depth q none ts with
      | some (ns, rest) => some ([nodeAround kind ns], rest)
      | none => none
    | .field f q =>
      match run grammar depth q none ts with
      | some (ns, rest) => some (ns.map (Node.withField (some f)), rest)
      | none => none
    | .after first suffix =>
      match run grammar depth first none ts with
      | some ([n], rest) => run grammar depth suffix (some n) rest
      | _ => none
    | .chain first suffix =>
      match run grammar depth first none ts with
      | some ([n], rest) => run grammar depth (.grow suffix) (some n) rest
      | _ => none
    | .grow suffix =>
      match soFar with
      | some n =>
        match run grammar depth suffix (some n) ts with
        | some ([m], rest) => run grammar depth (.grow suffix) (some m) rest
        | _ => some ([n], ts)
      | none => none
    | .wrap kind role kinds q =>
      match soFar with
      | some n =>
        if kinds.isEmpty || kinds.contains n.kind then
          match run grammar depth q none ts with
          | some (ns, rest) => some ([nodeAround kind (n.withField role :: ns)], rest)
          | none => none
        else none
      | none => none

/-- A depth that suffices for a list of tokens. -/
def depthFor (ts : List Token) : Nat :=
  1000 * (ts.length + 1)

/-- Reads tokens by a phrase of a grammar. -/
def read (grammar : P → Pattern P) (p : P) (ts : List Token) : Option (List Node × List Token) :=
  run grammar (depthFor ts) (.phrase p) none ts

end Pattern

end Java

end CallbackLint
