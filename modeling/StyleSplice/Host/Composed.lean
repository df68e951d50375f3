import StyleSplice.Host.Composition

/-!
# Composed text

A text is composed when taking it apart into letters and marks, putting the marks in order and
composing it again gives the text back.
-/

namespace StyleSplice

namespace Host

/-- The first syllable block of Hangul, which is composed by rule. -/
def firstSyllable : Nat := 0xAC00

/-- The number of syllable blocks. -/
def syllableCount : Nat := 11172

/-- The parts of a syllable block: a consonant, a vowel, and perhaps a final consonant. -/
def syllableParts (n : Nat) : List Nat :=
  let i := n - firstSyllable
  let final := i % 28
  [0x1100 + i / 588, 0x1161 + i % 588 / 28] ++ if final = 0 then [] else [0x11A7 + final]

/-- Whether the code point is a syllable block. -/
def isSyllable (n : Nat) : Bool := firstSyllable ≤ n && n < firstSyllable + syllableCount

/-- The code points that make up a code point. What a composition consists of may be composed
itself, at most as often as the fuel says. -/
def parts : Nat → Nat → List Nat
  | 0, n => [n]
  | fuel + 1, n =>
    if isSyllable n then syllableParts n
    else
      match compositions.find? fun c => c.2.2 == n with
      | some (a, b, _) => parts fuel a ++ parts fuel b
      | none => [n]

/-- How deep compositions are nested. -/
def compositionDepth : Nat := 5

/-- Puts a mark in front of the marks of higher classes at the end of a text, which is backwards. -/
def insertMark (n : Nat) : List Nat → List Nat
  | [] => [n]
  | m :: rest => if markClass n < markClass m then m :: insertMark n rest else n :: m :: rest

/-- The text with the marks after each letter in the order of their classes. `done` is backwards. -/
def orderMarks (done : List Nat) : List Nat → List Nat
  | [] => done.reverse
  | n :: rest => orderMarks (if markClass n = 0 then n :: done else insertMark n done) rest

/-- The code point that two make. -/
def composition? (a b : Nat) : Option Nat :=
  if 0x1100 ≤ a && a < 0x1113 && 0x1161 ≤ b && b < 0x1176 then
    some (firstSyllable + ((a - 0x1100) * 21 + (b - 0x1161)) * 28)
  else if isSyllable a && (a - firstSyllable) % 28 == 0 && 0x11A8 ≤ b && b < 0x11C3 then
    some (a + (b - 0x11A7))
  else (compositions.find? fun c => c.1 == a && c.2.1 == b).map fun c => c.2.2

/-- Composes a text that starts with `letter`. `marks` are those after it that did not compose,
backwards, and `last` the class of the last of them. -/
def composeFrom (letter : Nat) (marks : List Nat) (last : Nat) : List Nat → List Nat
  | [] => letter :: marks.reverse
  | n :: rest =>
    let k := markClass n
    let here := if marks.isEmpty || last < k then composition? letter n else none
    match here with
    | some c => composeFrom c marks last rest
    | none =>
      if k = 0 then letter :: marks.reverse ++ composeFrom n [] 0 rest
      else composeFrom letter (n :: marks) k rest

/-- Composes a text. -/
def compose : List Nat → List Nat
  | [] => []
  | n :: rest => composeFrom n [] 0 rest

/-- Whether a text is composed. -/
def isComposed (ns : List Nat) : Bool :=
  !ns.any replacedSet.mem && compose (orderMarks [] (ns.flatMap (parts compositionDepth))) == ns

end Host

end StyleSplice
