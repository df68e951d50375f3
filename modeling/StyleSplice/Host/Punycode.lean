import StyleSplice.Text.Basic

/-!
# Labels in ASCII

A label beyond ASCII travels as an ASCII text: its ASCII code points, and behind a hyphen the others
with their places. They come in ascending order, each as a number that says how many insertions were
possible since the one before. The numbers have digits of two kinds, so that their ends can be seen,
and what counts as a small digit follows the size of the numbers so far.
-/

namespace StyleSplice

namespace Punycode

/-- The threshold below which a digit is the last one of its number. -/
def threshold (position bias : Nat) : Nat :=
  let k := 36 * (position + 1)
  if k ≤ bias then 1 else if bias + 26 ≤ k then 26 else k - bias

theorem threshold_pos (position bias : Nat) : 1 ≤ threshold position bias := by
  unfold threshold
  simp only
  split
  · omega
  · split <;> omega

theorem threshold_le (position bias : Nat) : threshold position bias ≤ 26 := by
  unfold threshold
  simp only
  split
  · omega
  · split <;> omega

/-- Divides by 35 while the number is large, and counts 36 for each division. -/
def shrink (delta count : Nat) : Nat × Nat :=
  if 455 < delta then shrink (delta / 35) (count + 36) else (delta, count)
termination_by delta
decreasing_by exact Nat.div_lt_self (by omega) (by omega)

/-- The bias after a number, when the text has `length` code points. -/
def adapt (delta length : Nat) (first : Bool) : Nat :=
  let delta := if first then delta / 700 else delta / 2
  let (delta, count) := shrink (delta + delta / length) 0
  count + 36 * delta / (delta + 38)

/-- The character of a digit: letters, then ASCII digits. -/
def digitChar (d : Nat) : Char := if d < 26 then Char.ofNat (97 + d) else Char.ofNat (22 + d)

/-- The digit of a character, in either case. -/
def digit? (c : Char) : Option Nat :=
  let n := c.toLower.toNat
  if 97 ≤ n ∧ n ≤ 122 then some (n - 97)
  else if 48 ≤ n ∧ n ≤ 57 then some (n - 22)
  else none

/-- Writes a number from its digit at the given position on. -/
def writeNumber (bias position n : Nat) : Text :=
  let t := threshold position bias
  if n < t then [digitChar n]
  else
    digitChar (t + (n - t) % (36 - t)) :: writeNumber bias (position + 1) ((n - t) / (36 - t))
termination_by n
decreasing_by
  have h₁ := threshold_pos position bias
  have h₂ := Nat.div_le_self (n - threshold position bias) (36 - threshold position bias)
  omega

/-- What is kept while a label is written. -/
structure Writer where
  /-- The numbers so far. -/
  written : Text := []
  /-- How many insertions were possible since the last one. -/
  delta : Nat := 0
  bias : Nat := 72
  /-- How many code points are in place. -/
  placed : Nat
  first : Bool := true

/-- Goes past one code point of the label while those with the number `n` are written. -/
def Writer.pass (n : Nat) (w : Writer) (c : Nat) : Writer :=
  if c < n then { w with delta := w.delta + 1 }
  else if c = n then
    { written := w.written ++ writeNumber w.bias 0 w.delta
      delta := 0
      bias := adapt w.delta (w.placed + 1) w.first
      placed := w.placed + 1
      first := false }
  else w

/-- Writes those code points of the label whose numbers are given in ascending order, none of them
below `lowest`. -/
def Writer.run (label : List Nat) (w : Writer) (lowest : Nat) : List Nat → Writer
  | [] => w
  | n :: rest =>
    let w := { w with delta := w.delta + (n - lowest) * (w.placed + 1) }
    let w := label.foldl (Writer.pass n) w
    Writer.run label { w with delta := w.delta + 1 } (n + 1) rest

/-- Puts a number into a list in ascending order, once. -/
def insertOnce (n : Nat) : List Nat → List Nat
  | [] => [n]
  | m :: rest =>
    if n < m then n :: m :: rest else if n = m then m :: rest else m :: insertOnce n rest

/-- The ASCII text of a label. -/
def encode (label : List Nat) : Text :=
  let plain := label.filter fun n => n < 128
  let others := (label.filter fun n => 128 ≤ n).foldr insertOnce []
  let w := Writer.run label { placed := plain.length } 128 others
  (if plain.isEmpty then [] else plain.map Char.ofNat ++ ['-']) ++ w.written

/-- Reads a number from its digit at the given position on, and hands on the text after it. -/
def readNumber (bias position weight value : Nat) : Text → Option (Nat × Text)
  | [] => none
  | c :: rest =>
    match digit? c with
    | none => none
    | some d =>
      let value := value + d * weight
      let t := threshold position bias
      if d < t then some (value, rest)
      else readNumber bias (position + 1) (weight * (36 - t)) value rest

theorem length_lt_of_readNumber {bias position weight value n : Nat} {s rest : Text}
    (h : readNumber bias position weight value s = some (n, rest)) : rest.length < s.length := by
  induction s generalizing position weight value with
  | nil => simp [readNumber] at h
  | cons c s ih =>
    simp only [readNumber] at h
    split at h
    · cases h
    · split at h
      · simp only [Option.some.injEq, Prod.mk.injEq] at h
        simp [h.2]
      · have := ih h
        simp only [List.length_cons]
        omega

/-- Inserts the code points whose numbers follow into the label. `n` is the last code point inserted
and `index` the place behind it. -/
def insertAll (label : List Nat) (n index bias : Nat) (first : Bool) (s : Text) :
    Option (List Nat) :=
  if s.isEmpty then some label
  else
    match _h : readNumber bias 0 1 0 s with
    | none => none
    | some (delta, rest) =>
      let length := label.length + 1
      let place := index + delta
      let n := n + place / length
      if 0x10FFFF < n then none
      else
        insertAll (label.insertIdx (place % length) n) n (place % length + 1)
          (adapt delta length first) false rest
termination_by s.length
decreasing_by exact length_lt_of_readNumber (by assumption)

/-- The label of an ASCII text. -/
def decode? (s : Text) : Option (List Nat) :=
  let (plain, numbers) := (Text.cutLast (· == '-') s).getD ([], s)
  insertAll (plain.map Char.toNat) 128 0 72 true numbers

end Punycode

end StyleSplice
