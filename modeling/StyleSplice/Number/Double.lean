import StyleSplice.Text.Basic

/-!
# Binary floating point

Numbers with 53 significant bits, rounding to the nearest with ties to even, and their shortest
decimal text. All arithmetic is on natural numbers, so every value can be computed with in proofs.
-/

namespace StyleSplice

/-- A floating point number. A finite one is `mantissa * 2 ^ exponent` up to its sign; the mantissa
is below `2 ^ 53`, and at least `2 ^ 52` unless the exponent is the least one. -/
inductive Double
  | nan (negative : Bool)
  | infinity (negative : Bool)
  | finite (negative : Bool) (mantissa : Nat) (exponent : Int)
deriving DecidableEq, Repr, Inhabited

namespace Double

/-- A power of a natural number. -/
def pow (base n : Nat) : Nat := Nat.pow base n

/-- The least mantissa of a number that is not among the smallest: `2 ^ 52`. -/
def leastMantissa : Nat := 0x10000000000000

/-- The bit of the interchange format that tells a negative number. -/
def signBit : Nat := 0x8000000000000000

/-- The least exponent. -/
def minExponent : Int := -1074

/-- The greatest exponent. -/
def maxExponent : Int := 971

/-- The quotient of `num * 2 ^ (-e)` and `den` as a fraction of natural numbers. -/
def scaled (num den : Nat) (e : Int) : Nat × Nat :=
  if e < 0 then (num * pow 2 (-e).toNat, den) else (num, den * pow 2 e.toNat)

/-- The quotient rounded to the nearest number; a tie goes to the even one. -/
def roundedQuotient (num den : Nat) : Nat :=
  let q := num / den
  let twice := 2 * (num % den)
  if twice > den ∨ (twice = den ∧ q % 2 = 1) then q + 1 else q

/-- The number nearest to a quotient, with the given sign. -/
def ofRatio (negative : Bool) (num den : Nat) : Double :=
  if num = 0 then .finite negative 0 minExponent
  else
    let guess := max ((Nat.log2 num : Int) - Nat.log2 den - 52) minExponent
    let (n, d) := scaled num den guess
    let e := if n / d < leastMantissa ∧ minExponent < guess then guess - 1 else guess
    let (n, d) := scaled num den e
    let m := roundedQuotient n d
    let (m, e) := if m = 2 * leastMantissa then (leastMantissa, e + 1) else (m, e)
    if e > maxExponent then .infinity negative else .finite negative m e

/-- The number nearest to `digits * 10 ^ exponent`, with the given sign. Far out of range the
answer is known without the power. -/
def ofDecimal (negative : Bool) (digits : Nat) (exponent : Int) : Double :=
  let size := ((Nat.toDigits 10 digits).length : Int) + exponent
  if digits = 0 ∨ size < -400 then .finite negative 0 minExponent
  else if size > 400 then .infinity negative
  else if exponent < 0 then ofRatio negative digits (pow 10 (-exponent).toNat)
  else ofRatio negative (digits * pow 10 exponent.toNat) 1

/-- The number nearest to a whole number; none if that is out of range. -/
def ofInt? (n : Int) : Option Double :=
  match ofRatio (n < 0) n.natAbs 1 with
  | .infinity _ => none
  | x => some x

/-- The 64 bits of the interchange format, as a number. -/
def bits : Double → Nat
  | .nan negative => (if negative then signBit else 0) + 0x7FF8000000000000
  | .infinity negative => (if negative then signBit else 0) + 0x7FF0000000000000
  | .finite negative m e =>
    let sign := if negative then signBit else 0
    if m < leastMantissa then sign + m
    else sign + (e - minExponent + 1).toNat * leastMantissa + (m - leastMantissa)

/-- A finite number without its sign as a fraction. -/
def fraction (m : Nat) (e : Int) : Nat × Nat :=
  if e < 0 then (m, pow 2 (-e).toNat) else (m * pow 2 e.toNat, 1)

/-- The quotient of `num * 10 ^ (-p)` and `den` as a fraction of natural numbers. -/
def shifted (num den : Nat) (p : Int) : Nat × Nat :=
  if p < 0 then (num * pow 10 (-p).toNat, den) else (num, den * pow 10 p.toNat)

/-- The exponent of the leading decimal digit of a fraction. -/
def leadingExponent (num den : Nat) : Int :=
  let p := ((Nat.toDigits 10 num).length : Int) - (Nat.toDigits 10 den).length
  let (n, d) := shifted num den p
  if n ≥ d then p else p - 1

/-- Whether `digits * 10 ^ p` rounds to `m * 2 ^ e`: it lies between the midpoints to the
neighbours, or on one of them if `m` is even. -/
def readsBack (m : Nat) (e : Int) (digits : Nat) (p : Int) : Bool :=
  let (a, b) := if p < 0 then (digits, pow 10 (-p).toNat) else (digits * pow 10 p.toNat, 1)
  -- everything in quarters of the last place
  let (n, d) := scaled (4 * a) b e
  let low := if m = leastMantissa ∧ minExponent < e then 4 * m - 1 else 4 * m - 2
  let high := 4 * m + 2
  if m % 2 = 0 then low * d ≤ n && n ≤ high * d else low * d < n && n < high * d

/-- Of two neighbouring decimals the one nearer to the fraction; a tie goes to the even one. -/
def nearer (num den : Nat) (low : Nat) (p : Int) : Nat :=
  let (n, d) := shifted num den p
  let twice := 2 * (n - low * d)
  if twice > d ∨ (twice = d ∧ low % 2 = 1) then low + 1 else low

/-- The fewest digits that read back, tried from `count` digits on, and the exponent of the last. -/
def shortestFrom (m : Nat) (e : Int) (num den : Nat) (lead : Int) : Nat → Nat → Nat × Int
  | 0, count =>
    let p := lead - count + 1
    let (n, d) := shifted num den p
    (n / d, p)
  | fuel + 1, count =>
    let p := lead - count + 1
    let (n, d) := shifted num den p
    let low := n / d
    let best := nearer num den low p
    let other := if best = low then low + 1 else low
    if readsBack m e best p then (best, p)
    else if readsBack m e other p then (other, p)
    else shortestFrom m e num den lead fuel (count + 1)

/-- The digits of a finite number other than zero, and the exponent of the last. -/
def shortest (m : Nat) (e : Int) : Nat × Int :=
  let (num, den) := fraction m e
  shortestFrom m e num den (leadingExponent num den) 17 1

/-- An exponent with its sign and at least two digits. -/
def exponentText (n : Int) : Text :=
  let digits := Text.ofNat n.natAbs
  (if n < 0 then '-' else '+') :: (if digits.length < 2 then '0' :: digits else digits)

/-- Digits without zeros at the end. -/
def significant (digits : Text) : Text := Text.trimEnd (· == '0') digits

/-- The text of a finite number without its sign: positional from `0.0001` up to sixteen places in
front of the point, and with an exponent otherwise. -/
def unsignedText (m : Nat) (e : Int) : Text :=
  if m = 0 then "0.0".toList
  else
    let (digits, p) := shortest m e
    let written := Text.ofNat digits
    let lead := p + written.length - 1
    let digits := significant written
    let count : Int := digits.length
    if -4 ≤ lead ∧ lead < 16 then
      if lead < 0 then "0.".toList ++ List.replicate (-lead - 1).toNat '0' ++ digits
      else if count ≤ lead + 1 then
        digits ++ List.replicate (lead + 1 - count).toNat '0' ++ ".0".toList
      else digits.take (lead + 1).toNat ++ '.' :: digits.drop (lead + 1).toNat
    else
      digits.take 1 ++ (if digits.length = 1 then [] else '.' :: digits.drop 1) ++
        'e' :: exponentText lead

/-- The shortest decimal text that reads back as the number. -/
def text : Double → Text
  | .nan _ => "nan".toList
  | .infinity negative => (if negative then "-inf" else "inf").toList
  | .finite negative m e => (if negative then ['-'] else []) ++ unsignedText m e

/-- Whether the number is the given whole number. -/
def isInt (n : Int) : Double → Bool
  | .finite negative m e =>
    let (num, den) := fraction m e
    num % den = 0 && (if negative then -(num / den : Int) else (num / den : Int)) = n
  | _ => false

/-- Whether two numbers have the same value; a number that is none equals itself. -/
def sameValue : Double → Double → Bool
  | .finite _ 0 _, .finite _ 0 _ => true
  | .nan _, .nan _ => true
  | x, y => x = y

end Double

end StyleSplice
