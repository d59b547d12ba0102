/-!
# How alike two texts are

The likeness of two texts is measured by the characters they share: the longest run that
stands in both, then what they share before that run and what they share behind it. Two
texts are close when the shared characters, counted in both, make up three fifths of all
their characters or more.
-/

namespace CallbackLint

namespace Text

/-- The number of characters that two texts start with in common. -/
def commonStart : List Char → List Char → Nat
  | a :: as, b :: bs => if a == b then commonStart as bs + 1 else 0
  | _, _ => 0

/-- A run that stands in two texts. -/
structure Run where
  /-- The number of characters before it in the first text. -/
  first : Nat
  /-- The number of characters before it in the second text. -/
  second : Nat
  length : Nat
deriving Repr, DecidableEq, Inhabited

/-- All runs that start at some character of each text, those that start earlier in the first
text before others, and of these those that start earlier in the second. -/
def runs (as bs : List Char) : List Run :=
  (List.range as.length).flatMap fun i =>
    (List.range bs.length).map fun j => ⟨i, j, commonStart (as.drop i) (bs.drop j)⟩

/-- The first of the longest runs of two texts; it is empty when they share nothing. -/
def longestRun (as bs : List Char) : Run :=
  (runs as bs).foldl (fun best r => if best.length < r.length then r else best) ⟨0, 0, 0⟩

/-- The number of characters that two texts share, given that the first has at most as many
characters as the first argument says. -/
def sharedWithin : Nat → List Char → List Char → Nat
  | 0, _, _ => 0
  | n + 1, as, bs =>
    let r := longestRun as bs
    if r.length == 0 then 0
    else
      r.length + sharedWithin n (as.take r.first) (bs.take r.second) +
        sharedWithin n (as.drop (r.first + r.length)) (bs.drop (r.second + r.length))

/-- The number of characters that two texts share. -/
def shared (a b : String) : Nat :=
  sharedWithin a.length a.toList b.toList

/-- Whether two texts are alike enough for one to be taken for the other. -/
def isClose (a b : String) : Bool :=
  3 * (a.length + b.length) ≤ 10 * shared a b

end Text

end CallbackLint
