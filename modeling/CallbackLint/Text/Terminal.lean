/-!
# Terminal sequences

A terminal takes an escape character, an opening bracket, some parameters and a letter as
an order, such as one to change the colour. Text that is not written to a terminal has these
sequences taken out.
-/

namespace CallbackLint

namespace Text

/-- The characters between the bracket and the letter of a sequence. -/
def isParameter (c : Char) : Bool :=
  c.isDigit || c == ';' || c == '?'

/-- The number of characters of a sequence behind its escape character, zero when what
stands there is no sequence. -/
def sequenceLength (cs : List Char) : Nat :=
  match cs with
  | '[' :: rest =>
    match rest.dropWhile isParameter with
    | c :: _ => if c.isAlpha then (rest.takeWhile isParameter).length + 2 else 0
    | [] => 0
  | _ => 0

/-- The characters without terminal sequences, where the first `skipped` characters are the
rest of one. -/
def dropSequences (skipped : Nat) : List Char → List Char
  | [] => []
  | c :: cs =>
    match skipped with
    | n + 1 => dropSequences n cs
    | 0 =>
      if c == '\x1b' && sequenceLength cs != 0 then dropSequences (sequenceLength cs) cs
      else c :: dropSequences 0 cs

/-- The text without terminal sequences. -/
def withoutSequences (s : String) : String :=
  String.ofList (dropSequences 0 s.toList)

end Text

end CallbackLint
