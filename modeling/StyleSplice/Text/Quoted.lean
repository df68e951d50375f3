import StyleSplice.Text.Classes

/-!
# Quoted texts

How a message shows a text that somebody wrote: in quotes, with every character that could not be
read on a terminal as an escape.
-/

namespace StyleSplice

/-- The hexadecimal digit of a number below sixteen, in small letters. -/
def hexChar (n : Nat) : Char := Nat.digitChar n

/-- The last `width` hexadecimal digits of a number, in small letters. -/
def hexDigits : Nat → Nat → Text
  | 0, _ => []
  | width + 1, n => hexDigits width (n / 16) ++ [hexChar (n % 16)]

/-- The escape of a character by its code point, in two, four or eight digits. -/
def escapeCode (c : Char) : Text :=
  let n := c.toNat
  if n < 0x100 then "\\x".toList ++ hexDigits 2 n
  else if n < 0x10000 then "\\u".toList ++ hexDigits 4 n
  else "\\U".toList ++ hexDigits 8 n

/-- One character of a text quoted by `quote`. -/
def escapeChar (quote c : Char) : Text :=
  if c = quote ∨ c = '\\' then ['\\', c]
  else if c = '\n' then ['\\', 'n']
  else if c = '\r' then ['\\', 'r']
  else if c = '\t' then ['\\', 't']
  else if isPrintable c then [c]
  else escapeCode c

/-- Double quotes are used for a text that holds a single quote and no double one. -/
def quoteFor (s : Text) : Char :=
  if s.contains '\x27' && !s.contains '\x22' then '\x22' else '\x27'

/-- The text in quotes. -/
def Text.quoted (s : Text) : Text :=
  let q := quoteFor s
  q :: s.flatMap (escapeChar q) ++ [q]

end StyleSplice
