/-! # How alike two texts are

Two texts are compared by the characters that they share in order.  The longest run of
characters that occurs in both is found first (of several the one that stands first in the
first text, then in the second), and the parts before it and behind it are compared in the same
way.  Twice the number of shared characters, divided by the number of all characters, is the
likeness of the texts.

In a long second text the characters that occur very often start no run: they only extend a run
that other characters have started. -/

namespace Costing.Text

/-- The number of characters that two texts share at their front, as long as `counts` holds of
them. -/
def sharedFront (counts : Char → Bool) : List Char → List Char → Nat
  | c :: cs, d :: ds => if c = d ∧ counts c = true then sharedFront counts cs ds + 1 else 0
  | _, _ => 0

/-- A run of characters that two texts share: where it starts in each of them, and how long it
is. -/
structure SharedRun where
  first : Nat
  second : Nat
  length : Nat

/-- All tails of a text with their places, the whole text first. -/
def tails : List Char → Nat → List (List Char × Nat)
  | [], _ => []
  | c :: cs, i => (c :: cs, i) :: tails cs (i + 1)

/-- The first of the longest runs of characters of which `starts` holds. -/
def longestRun (starts : Char → Bool) (a b : List Char) : SharedRun :=
  let runs := (tails a 0).flatMap fun (x, i) => (tails b 0).map fun (y, j) =>
    SharedRun.mk i j (sharedFront starts x y)
  runs.foldl (fun best r => if best.length < r.length then r else best) ⟨0, 0, 0⟩

/-- A run with all characters that both texts share on either side of it. -/
def SharedRun.extended (r : SharedRun) (a b : List Char) : SharedRun :=
  let anything := fun _ => true
  let before := sharedFront anything (a.take r.first).reverse (b.take r.second).reverse
  let behind := sharedFront anything (a.drop (r.first + r.length)) (b.drop (r.second + r.length))
  ⟨r.first - before, r.second - before, before + r.length + behind⟩

/-- The number of characters that two texts share in order.  Each run takes at least one
character, so `rounds` need not exceed the length of the first text. -/
def sharedCount (starts : Char → Bool) : Nat → List Char → List Char → Nat
  | 0, _, _ => 0
  | rounds + 1, a, b =>
    let run := (longestRun starts a b).extended a b
    if run.length = 0 then 0
    else
      sharedCount starts rounds (a.take run.first) (b.take run.second) + run.length +
        sharedCount starts rounds (a.drop (run.first + run.length))
          (b.drop (run.second + run.length))

/-- From this length on a text is long. -/
def longLength : Nat := 200

/-- Whether a character may start a run in a text: in a long text only if at most one in a
hundred characters, and one more, is the same. -/
def startsRunIn (b : List Char) (c : Char) : Bool :=
  b.length < longLength || b.count c ≤ b.length / 100 + 1

/-- The likeness of two texts, as the number of shared characters and the number of all. -/
structure Likeness where
  shared : Nat
  total : Nat

namespace Likeness

/-- The likeness of a text to a given word. -/
def ofTexts (text word : List Char) : Likeness :=
  ⟨sharedCount (startsRunIn word) text.length text word, text.length + word.length⟩

/-- Whether three fifths of all characters are shared. -/
def isClose (l : Likeness) : Bool := 3 * l.total ≤ 10 * l.shared

def exceeds (l m : Likeness) : Bool := m.shared * l.total < l.shared * m.total

end Likeness

/-- The texts that are close to a word, the closest first and not more than `limit`.  Equally
close texts stand in descending order. -/
def closeMatches (word : String) (texts : List String) (limit : Nat) : List String :=
  let scored := texts.map fun t => (Likeness.ofTexts t.toList word.toList, t)
  let inOrder := fun (x y : Likeness × String) =>
    x.1.exceeds y.1 || (!y.1.exceeds x.1 && !decide (x.2 < y.2))
  (((scored.filter (·.1.isClose)).mergeSort inOrder).take limit).map (·.2)

end Costing.Text
