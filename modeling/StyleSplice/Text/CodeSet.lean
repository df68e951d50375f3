/-!
# Sets of code points

The character classes of the Unicode standard are given as ranges in hexadecimal, in ascending
order. This module reads such a list and looks a code point up in it.
-/

namespace StyleSplice

/-- Ranges of code points in ascending order, both ends included. -/
structure CodeSet where
  /-- The first and the last code point of each range. -/
  ranges : Array (Nat × Nat)

namespace CodeSet

/-- The value of a hexadecimal digit. -/
def hexDigit? (c : Char) : Option Nat :=
  let n := c.toNat
  if 48 ≤ n ∧ n ≤ 57 then some (n - 48)
  else if 65 ≤ n ∧ n ≤ 70 then some (n - 55)
  else if 97 ≤ n ∧ n ≤ 102 then some (n - 87)
  else none

/-- Reads `lo-hi` and single numbers, each followed by blanks. `lo` holds the first end of a range
whose second end is being read. -/
def readRanges (ranges : Array (Nat × Nat)) (lo : Option Nat) (value : Option Nat) :
    List Char → Array (Nat × Nat)
  | [] =>
    match value with
    | some v => ranges.push (lo.getD v, v)
    | none => ranges
  | c :: r =>
    match hexDigit? c with
    | some d => readRanges ranges lo (some (value.getD 0 * 16 + d)) r
    | none =>
      if c = '-' then readRanges ranges value none r
      else
        match value with
        | some v => readRanges (ranges.push (lo.getD v, v)) none none r
        | none => readRanges ranges none none r

/-- The set written as a list of ranges, on any number of lines. -/
def ofRanges (lines : List String) : CodeSet :=
  ⟨readRanges #[] none none (lines.flatMap fun line => line.toList ++ [' '])⟩

/-- Reads hexadecimal numbers with blanks between them. -/
def readHex (value : Option Nat) : List Char → List Nat
  | [] => value.toList
  | c :: r =>
    match hexDigit? c with
    | some d => readHex (some (value.getD 0 * 16 + d)) r
    | none => value.toList ++ readHex none r

/-- The hexadecimal numbers on any number of lines. -/
def readNumbers (lines : List String) : List Nat :=
  lines.flatMap fun line => readHex none line.toList

/-- Bisection between the positions `lo` and `hi`. Each step halves their distance, so the fuel of
`mem` is ample. -/
def search (ranges : Array (Nat × Nat)) (n : Nat) : Nat → Nat → Nat → Bool
  | 0, _, _ => false
  | fuel + 1, lo, hi =>
    if hi ≤ lo then false
    else
      let mid := (lo + hi) / 2
      match ranges[mid]? with
      | none => false
      | some (a, b) =>
        if n < a then search ranges n fuel lo mid
        else if b < n then search ranges n fuel (mid + 1) hi
        else true

/-- Whether the code point is in one of the ranges. -/
def mem (s : CodeSet) (n : Nat) : Bool := search s.ranges n (s.ranges.size + 1) 0 s.ranges.size

end CodeSet

end StyleSplice
