/-!
# Markup

Printed text may hold style tags in square brackets. Text that comes from outside, such as
a path or a line of source, is escaped before it is put between tags: a bracket that would
open a tag gets a backslash in front of it, and the backslashes already there are doubled
so that they still stand for themselves.
-/

namespace CallbackLint

namespace Markup

/-- The characters that a tag may start with. -/
def isTagStart (c : Char) : Bool :=
  ('a' ≤ c && c ≤ 'z') || c == '#' || c == '/' || c == '@'

/-- Whether a closing bracket comes before the next opening one. -/
def closes : List Char → Bool
  | [] => false
  | c :: cs => if c == ']' then true else if c == '[' then false else closes cs

/-- Whether the characters after an opening bracket make it open a tag. -/
def opensTag : List Char → Bool
  | [] => false
  | c :: cs => isTagStart c && closes cs

/-- Escapes the rest of a text, where `slashes` backslashes were read and not yet written. -/
def escapeFrom (slashes : Nat) : List Char → List Char
  | [] => List.replicate slashes '\\'
  | c :: cs =>
    if c == '\\' then escapeFrom (slashes + 1) cs
    else if c == '[' && opensTag cs then
      List.replicate (2 * slashes + 1) '\\' ++ c :: escapeFrom 0 cs
    else List.replicate slashes '\\' ++ c :: escapeFrom 0 cs

/-- A text that ends in a single backslash with that backslash doubled, so that it does not
act on what is put behind it. -/
def guardEnd (cs : List Char) : List Char :=
  match cs.reverse with
  | '\\' :: '\\' :: _ => cs
  | '\\' :: _ => cs ++ ['\\']
  | _ => cs

/-- The text as markup that shows it unchanged. -/
def escape (s : String) : String :=
  String.ofList (guardEnd (escapeFrom 0 s.toList))

/-- What the rest of a markup shows, where `slashes` backslashes were read and not yet
shown, and `inTag` says whether a tag is being read. Half of the backslashes before a tag
are shown, and an odd one makes the tag show too. -/
def shownFrom (slashes : Nat) (inTag : Bool) : List Char → List Char
  | [] => List.replicate slashes '\\'
  | c :: cs =>
    if inTag then shownFrom 0 (c != ']') cs
    else if c == '\\' then shownFrom (slashes + 1) false cs
    else if c == '[' && opensTag cs then
      List.replicate (slashes / 2) '\\' ++
        (if slashes % 2 == 1 then c :: shownFrom 0 false cs else shownFrom 0 true cs)
    else List.replicate slashes '\\' ++ c :: shownFrom 0 false cs

/-- The text that a markup shows: tags take effect and are gone. -/
def shown (s : String) : String :=
  String.ofList (shownFrom 0 false s.toList)

end Markup

end CallbackLint
