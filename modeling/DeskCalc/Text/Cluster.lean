import DeskCalc.Text.ClusterBreak

/-! # Clusters

What a reader takes for one character may be several: a letter with its accents, a syllable of
Hangul, a flag, pictures merged by a joiner, consonants merged by a sign, or a carriage return with
the line feed behind it.  A screen cell holds one such cluster.  The rules are those of the Unicode
standard for extended grapheme clusters. -/

namespace DeskCalc.Text

/-- How far a merger of two like characters has come: the first one is there, perhaps with marks, or
the sign that merges it with the next one as well. -/
inductive Merger
  | opened
  | linked
deriving DecidableEq

/-- How a cluster ends, as far as the next character can tell. -/
structure ClusterEnd where
  last : ClusterBreak
  /-- Whether the cluster ends with a single half of a flag. -/
  halfFlag : Bool
  picture : Option Merger
  conjunct : Option Merger

namespace ClusterEnd

/-- The merger of two pictures after a further character of class `b`. -/
def nextPicture (m : Option Merger) (b : ClusterBreak) : Option Merger :=
  match b, m with
  | .picture, _ => some .opened
  | .extend, some .opened => some .opened
  | .joiner, some .opened => some .linked
  | _, _ => none

/-- The merger of two consonants after a further character `c` of class `b`. -/
def nextConjunct (m : Option Merger) (c : Char) (b : ClusterBreak) : Option Merger :=
  if isConjunct c then some .opened
  else if isLinker c then m.map fun _ => .linked
  else if (b = .extend ∧ c ≠ '\u200c') ∨ b = .joiner then m
  else none

/-- The end of a cluster of one character. -/
def ofChar (c : Char) : ClusterEnd :=
  let b := ClusterBreak.ofChar c
  ⟨b, b = .region, nextPicture none b, nextConjunct none c b⟩

/-- The end of a cluster after `c` has joined it. -/
def push (e : ClusterEnd) (c : Char) : ClusterEnd :=
  let b := ClusterBreak.ofChar c
  ⟨b, b = .region ∧ ¬ e.halfFlag, nextPicture e.picture b, nextConjunct e.conjunct c b⟩

/-- Whether a cluster that ends so goes on with `c`. -/
def joins (e : ClusterEnd) (c : Char) : Bool :=
  match e.last, ClusterBreak.ofChar c with
  | .carriageReturn, .lineFeed => true
  | .carriageReturn, _ | .lineFeed, _ | .control, _ => false
  | _, .carriageReturn | _, .lineFeed | _, .control => false
  | _, .extend | _, .joiner | _, .spacing => true
  | .prepend, _ => true
  | .leading, .leading | .leading, .vowel => true
  | .leading, .openSyllable | .leading, .closedSyllable => true
  | .openSyllable, .vowel | .openSyllable, .trailing | .vowel, .vowel | .vowel, .trailing => true
  | .closedSyllable, .trailing | .trailing, .trailing => true
  | _, .picture => e.picture = some .linked
  | _, .region => e.halfFlag
  | _, _ => e.conjunct = some .linked ∧ isConjunct c

end ClusterEnd

/-- Cuts the rest of a text into clusters.  `cluster` is the one being filled, `e` its end. -/
def clustersFrom (cluster : List Char) (e : ClusterEnd) : List Char → List (List Char)
  | [] => [cluster]
  | c :: rest =>
    if e.joins c then clustersFrom (cluster ++ [c]) (e.push c) rest
    else cluster :: clustersFrom [c] (ClusterEnd.ofChar c) rest

/-- Cuts a text into clusters. -/
def clusters : List Char → List (List Char)
  | [] => []
  | c :: rest => clustersFrom [c] (ClusterEnd.ofChar c) rest

end DeskCalc.Text
