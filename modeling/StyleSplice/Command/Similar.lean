import StyleSplice.Text.Basic

/-!
# Similar words

A word that is not known may be a slip for one that is. Two words are similar when at least six out
of ten of their characters match, counted by the longest common part, then by what matches in front
of it and behind it.
-/

namespace StyleSplice

namespace Similar

/-- How many characters two texts have in common at their front. -/
def commonFront : Text → Text → Nat
  | a :: s, b :: t => if a = b then commonFront s t + 1 else 0
  | _, _ => 0

/-- A common part of two texts: its places in both, and its length. -/
structure Part where
  left : Nat
  right : Nat
  length : Nat
deriving DecidableEq, Repr

/-- The longer of two parts, the first if they are equally long. -/
def longer (p q : Part) : Part := if p.length < q.length then q else p

/-- The longest common part; of several the one that comes first in `s`, then in `t`. -/
def longestPart (s t : Text) : Part :=
  (List.range s.length).foldl
    (fun best i =>
      (List.range t.length).foldl
        (fun best j => longer best ⟨i, j, commonFront (s.drop i) (t.drop j)⟩) best)
    ⟨0, 0, 0⟩

/-- How many characters match. Every round takes a common part away, so the length of a text is fuel
enough. -/
def matching : Nat → Text → Text → Nat
  | 0, _, _ => 0
  | fuel + 1, s, t =>
    let p := longestPart s t
    if p.length = 0 then 0
    else
      p.length + matching fuel (s.take p.left) (t.take p.right) +
        matching fuel (s.drop (p.left + p.length)) (t.drop (p.right + p.length))

/-- How well a known word fits: the matching characters, twice, out of all characters. -/
structure Fit where
  word : Text
  twice : Nat
  total : Nat
deriving Repr

/-- How well a known word fits the given one. Words of very different length are not compared. -/
def fit (given word : Text) : Fit :=
  let total := word.length + given.length
  let bound := 2 * min word.length given.length
  ⟨word, if bound * 10 < 6 * total then bound else 2 * matching word.length word given, total⟩

/-- Whether six out of ten characters match. -/
def Fit.isClose (f : Fit) : Bool := 6 * f.total ≤ 10 * f.twice

/-- Whether a word fits better than another one, or as well and comes later in the order of words. -/
def Fit.isBetter (f g : Fit) : Bool :=
  g.twice * f.total < f.twice * g.total ||
    (g.twice * f.total == f.twice * g.total && g.word < f.word)

/-- Puts a fit behind the better ones. -/
def place (f : Fit) : List Fit → List Fit
  | [] => [f]
  | g :: rest => if f.isBetter g then f :: g :: rest else g :: place f rest

/-- Puts a word into a list in ascending order. -/
def insertWord (w : Text) : List Text → List Text
  | [] => [w]
  | v :: rest => if v < w then v :: insertWord w rest else w :: v :: rest

/-- At most three known words that are similar to the given one, in ascending order. -/
def words (given : Text) (known : List Text) : List Text :=
  let fits := ((known.map (fit given)).filter Fit.isClose).foldr place []
  ((fits.take 3).map Fit.word).foldr insertWord []

end Similar

end StyleSplice
