import StyleSplice.Number.Double
import StyleSplice.Text.Classes

/-!
# Numbers in free text

Whole and decimal numbers as people write them: a sign, digits of any script, single underscores
between digits, white space at the ends.
-/

namespace StyleSplice

/-- The text with digits of other scripts turned into ASCII digits and their white space into
spaces. Nothing comes of a text with another character beyond ASCII. -/
def plainNumeral? (s : Text) : Option Text :=
  s.mapM fun c =>
    if c.toNat < 127 then some c
    else if isBlank c then some ' '
    else if c.toNat = 127 then none
    else (digitValue? c).map Nat.digitChar

/-- Whether every underscore stands between two digits. -/
def underscoresFit : Option Char → Text → Bool
  | last, [] => last != some '_'
  | last, c :: r =>
    let fits :=
      if c == '_' then (last.map Char.isDigit).getD false
      else last != some '_' || c.isDigit
    fits && underscoresFit (some c) r

/-- The text without its underscores if each of them stands between two digits. -/
def withoutUnderscores? (s : Text) : Option Text :=
  if underscoresFit none s then some (s.filter (· != '_')) else none

/-- The value of decimal digits. -/
def digitsValue (s : Text) : Nat := s.foldl (fun n c => n * 10 + (c.toNat - 48)) 0

/-- The sign of a numeral and the text after it. -/
def takeSign : Text → Bool × Text
  | '-' :: r => (true, r)
  | '+' :: r => (false, r)
  | s => (false, s)

/-- The most digits that a whole number may be written with. -/
def maxDigits : Nat := 4300

/-- Reads a whole number. -/
def readInt? (s : Text) : Option Int :=
  (plainNumeral? s).bind fun s =>
    let (negative, s) := takeSign (Text.trim isAsciiSpace s)
    (withoutUnderscores? s).bind fun s =>
      if s.isEmpty || !s.all Char.isDigit || s.length > maxDigits then none
      else some (if negative then -(digitsValue s : Int) else digitsValue s)

/-- The exponent of a numeral: nothing, or an `e` with a whole number. -/
def readExponent? : Text → Option Int
  | [] => some 0
  | c :: r =>
    if c = 'e' ∨ c = 'E' then
      let (negative, digits) := takeSign r
      if digits.isEmpty || !digits.all Char.isDigit then none
      else some (if negative then -(digitsValue digits : Int) else digitsValue digits)
    else none

/-- Reads a decimal number without sign and underscores. -/
def readDecimal? (negative : Bool) (s : Text) : Option Double :=
  let whole := s.takeWhile Char.isDigit
  let rest := s.dropWhile Char.isDigit
  let (places, rest) := match rest with
    | '.' :: r => (r.takeWhile Char.isDigit, r.dropWhile Char.isDigit)
    | _ => ([], rest)
  if whole.isEmpty && places.isEmpty then none
  else
    (readExponent? rest).map fun e =>
      Double.ofDecimal negative (digitsValue (whole ++ places)) (e - places.length)

/-- Reads a decimal number, or the name of infinity or of no number. -/
def readDouble? (s : Text) : Option Double :=
  (plainNumeral? s).bind fun s =>
    (withoutUnderscores? (Text.trim isAsciiSpace s)).bind fun s =>
      let (negative, s) := takeSign s
      let word := s.map Char.toLower
      if word = "inf".toList ∨ word = "infinity".toList then some (.infinity negative)
      else if word = "nan".toList then some (.nan negative)
      else readDecimal? negative s

end StyleSplice
