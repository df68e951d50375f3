import StyleSplice.Text.CodeSet
import StyleSplice.Text.Basic

/-!
# Percent signs

Characters that a part of an address cannot hold are written as their bytes in UTF-8, each as a
percent sign and two hexadecimal digits. Percent signs themselves stay as they are, so quoting a part
twice changes nothing more.
-/

namespace StyleSplice

namespace Percent

/-- A hexadecimal digit in capitals. -/
def hexDigit (n : Nat) : Char := (Nat.digitChar n).toUpper

/-- A byte behind a percent sign. -/
def quoteByte (b : Nat) : Text := ['%', hexDigit (b / 16), hexDigit (b % 16)]

/-- The bytes of a character. -/
def bytesOf (c : Char) : List Nat := (String.utf8EncodeChar c).map UInt8.toNat

/-- The text with the characters quoted that do not satisfy `safe`. -/
def quote (safe : Char → Bool) (s : Text) : Text :=
  s.flatMap fun c => if safe c then [c] else (bytesOf c).flatMap quoteByte

/-- The printable characters of ASCII. -/
def isPrintableAscii (c : Char) : Bool := 32 ≤ c.toNat && c.toNat < 127

/-- What a fragment holds unquoted. -/
def inFragment (c : Char) : Bool := isPrintableAscii c && !" \"<>\x60".toList.contains c

/-- What a query holds unquoted. -/
def inQuery (c : Char) : Bool := isPrintableAscii c && !" \"#<>".toList.contains c

/-- What a path holds unquoted. -/
def inPath (c : Char) : Bool := inQuery c && !"?\x60\x7b\x7d".toList.contains c

/-- What user information holds unquoted. -/
def inUserInfo (c : Char) : Bool := inPath c && !"/;=@[\\]^|".toList.contains c

/-- What a host in ASCII holds unquoted. -/
def inHost (c : Char) : Bool :=
  c.isAlphanum || "-._~!$&'()*+,;=\"\x60\x7b\x7d%|\\".toList.contains c

/-- The bytes of a text in ASCII, quoted ones decoded. -/
def unquotedBytes : Text → List Nat
  | [] => []
  | '%' :: a :: b :: r =>
    match CodeSet.hexDigit? a, CodeSet.hexDigit? b with
    | some m, some n => (m * 16 + n) :: unquotedBytes r
    | _, _ => 37 :: unquotedBytes (a :: b :: r)
  | c :: r => c.toNat :: unquotedBytes r

/-- Whether a byte continues a character. -/
def continues (b : Nat) : Bool := 0x80 ≤ b && b < 0xC0

/-- Whether a second byte may follow the first byte of a character. -/
def mayFollow (first second : Nat) : Bool :=
  continues second &&
    (if first = 0xE0 then 0xA0 ≤ second
    else if first = 0xED then second < 0xA0
    else if first = 0xF0 then 0x90 ≤ second
    else if first = 0xF4 then second < 0x90
    else true)

/-- How many bytes follow the first byte of a character; none for a byte that starts none. -/
def followers? (first : Nat) : Option Nat :=
  if 0xC2 ≤ first ∧ first < 0xE0 then some 1
  else if 0xE0 ≤ first ∧ first < 0xF0 then some 2
  else if 0xF0 ≤ first ∧ first < 0xF5 then some 3
  else none

/-- The bits of a first byte that belong to the code point. -/
def firstBits (first : Nat) : Nat :=
  if first < 0xE0 then first - 0xC0 else if first < 0xF0 then first - 0xE0 else first - 0xF0

/-- What the decoder is in the middle of. -/
inductive Decoding
  | between
  /-- Just after a first byte, which more bytes should follow. -/
  | started (first more : Nat)
  /-- Inside a character, with the bits so far. -/
  | inside (value more : Nat)

/-- The character that stands for bytes that make none. -/
def replacement : Char := '\ufffd'

/-- What a byte that starts or makes a character leads to: a character or a state. -/
def start (b : Nat) : Text × Decoding :=
  if b < 0x80 then ([Char.ofNat b], .between)
  else
    match followers? b with
    | some more => ([], .started b more)
    | none => ([replacement], .between)

/-- Takes a byte that should continue a character. -/
def extend (value more b : Nat) : Text × Decoding :=
  let value := value * 64 + (b - 0x80)
  if more = 1 then ([Char.ofNat value], .between) else ([], .inside value (more - 1))

/-- Takes one byte: the characters it completes, and the state after it. Bytes that do not go on are
replaced together by one character. -/
def take (d : Decoding) (b : Nat) : Text × Decoding :=
  match d with
  | .between => start b
  | .started first more =>
    if mayFollow first b then extend (firstBits first) more b
    else
      let (s, d) := start b
      (replacement :: s, d)
  | .inside value more =>
    if continues b then extend value more b
    else
      let (s, d) := start b
      (replacement :: s, d)

/-- Decodes bytes in UTF-8. -/
def decode (d : Decoding) : List Nat → Text
  | [] =>
    match d with
    | .between => []
    | _ => [replacement]
  | b :: rest =>
    let (s, d) := take d b
    s ++ decode d rest

/-- The text without percent signs, where these stand for bytes. -/
def unquote (s : Text) : Text := decode .between (unquotedBytes s)

end Percent

end StyleSplice
