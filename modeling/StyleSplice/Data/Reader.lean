import StyleSplice.Data.Value
import StyleSplice.Number.Reader
import StyleSplice.Text.CodeSet
import StyleSplice.Text.Place

/-!
# Reading configuration values

A configuration is written in JSON. The reader goes through the text once and hands on what follows
each value; a fault remembers the text from its place on.
-/

namespace StyleSplice

/-- What can be wrong with the text of a configuration. -/
inductive DataMistake
  | noValue
  | noName
  | noColon
  | noComma
  | extra
  | badEscape
  | badCodeEscape
  | control
  | unterminated
  | byteOrderMark
  /-- A whole number with too many digits. -/
  | tooManyDigits (count : Nat)
deriving DecidableEq, Repr

/-- A mistake and the text from its place on. -/
structure DataFault where
  mistake : DataMistake
  rest : Text
deriving DecidableEq, Repr

/-- The wording of a mistake, if its place belongs into the message. -/
def DataMistake.message : DataMistake → String
  | .noValue => "Expecting value"
  | .noName => "Expecting property name enclosed in double quotes"
  | .noColon => "Expecting ':' delimiter"
  | .noComma => "Expecting ',' delimiter"
  | .extra => "Extra data"
  | .badEscape => "Invalid \\escape"
  | .badCodeEscape => "Invalid \\uXXXX escape"
  | .control => "Invalid control character at"
  | .unterminated => "Unterminated string starting at"
  | .byteOrderMark => "Unexpected UTF-8 BOM (decode using utf-8-sig)"
  | .tooManyDigits count =>
    "Exceeds the limit (" ++ toString maxDigits ++ " digits) for integer string conversion: value has "
      ++ toString count ++ " digits; use sys.set_int_max_str_digits() to increase the limit"

/-- The wording of a fault in the text `source`. -/
def DataFault.message (source : Text) (f : DataFault) : String :=
  match f.mistake with
  | .tooManyDigits _ => f.mistake.message
  | m =>
    let index := source.length - f.rest.length
    m.message ++ ": line " ++ toString (lineAt source index) ++ " column " ++
      toString (columnAt source index) ++ " (char " ++ toString index ++ ")"

namespace Value

/-- White space between the parts of a configuration. -/
def isSpace (c : Char) : Bool := c == ' ' || c == '\t' || c == '\n' || c == '\r'

/-- The text without white space in front. -/
def skip (s : Text) : Text := Text.trimStart isSpace s

/-- The character that a one-letter escape stands for. -/
def simpleEscape? (c : Char) : Option Char :=
  match c with
  | '\x22' => some '\x22'
  | '\\' => some '\\'
  | '/' => some '/'
  | 'b' => some '\x08'
  | 'f' => some '\x0c'
  | 'n' => some '\n'
  | 'r' => some '\r'
  | 't' => some '\t'
  | _ => none

/-- The number of four hexadecimal digits. -/
def hexNumber? (s : Text) : Option Nat :=
  if s.length = 4 then
    s.foldl (fun n c => n.bind fun n => (CodeSet.hexDigit? c).map fun d => n * 16 + d) (some 0)
  else none

/-- The code unit of the escape at the front: `u` and four digits, with more text behind. `s` starts
after the backslash. -/
def codeEscape (s : Text) : Except DataFault (Nat × Text) :=
  let digits := (s.drop 1).take 4
  let rest := s.drop 5
  match hexNumber? digits with
  | some n => if rest.isEmpty then .error ⟨.badCodeEscape, s⟩ else .ok (n, rest)
  | none => .error ⟨.badCodeEscape, s⟩

/-- The second half of a surrogate pair at the front, if there is one, and the text after it. -/
def lowSurrogate? (s : Text) : Except DataFault (Option (Nat × Text)) :=
  match s with
  | '\\' :: 'u' :: r =>
    if r.length < 5 then .ok none
    else
      match codeEscape ('u' :: r) with
      | .error f => .error f
      | .ok (n, rest) => .ok (if 0xDC00 ≤ n ∧ n ≤ 0xDFFF then some (n, rest) else none)
  | _ => .ok none

/-- The character of an escape. `s` starts after the backslash. Half of a surrogate pair becomes the
replacement character. -/
def escape (opened s : Text) : Except DataFault (Char × Text) :=
  match s with
  | [] => .error ⟨.unterminated, opened⟩
  | 'u' :: _ =>
    match codeEscape s with
    | .error f => .error f
    | .ok (n, rest) =>
      if 0xD800 ≤ n ∧ n ≤ 0xDBFF then
        match lowSurrogate? rest with
        | .error f => .error f
        | .ok (some (low, rest)) =>
          .ok (Char.ofNat (0x10000 + (n - 0xD800) * 0x400 + (low - 0xDC00)), rest)
        | .ok none => .ok ('\ufffd', rest)
      else if 0xDC00 ≤ n ∧ n ≤ 0xDFFF then .ok ('\ufffd', rest)
      else .ok (Char.ofNat n, rest)
  | c :: r =>
    match simpleEscape? c with
    | some c => .ok (c, r)
    | none => .error ⟨.badEscape, '\\' :: s⟩

/-- The rest of a string. `opened` is the text from its opening quote on, `done` what has been read,
backwards. The fuel is the length of the text. -/
def readString (opened : Text) : Nat → Text → Text → Except DataFault (Text × Text)
  | 0, _, _ => .error ⟨.unterminated, opened⟩
  | _ + 1, _, [] => .error ⟨.unterminated, opened⟩
  | fuel + 1, done, c :: r =>
    if c = '\x22' then .ok (done.reverse, r)
    else if c = '\\' then
      match escape opened r with
      | .error f => .error f
      | .ok (c, rest) => readString opened fuel (c :: done) rest
    else if c.toNat ≤ 0x1F then .error ⟨.control, c :: r⟩
    else readString opened fuel (c :: done) r

/-- A string whose opening quote has been read. -/
def stringAfterQuote (r : Text) : Except DataFault (Text × Text) :=
  readString ('\x22' :: r) (r.length + 1) [] r

/-- The fraction at the front: a point with digits. -/
def takePlaces (s : Text) : Option Text × Text :=
  match s with
  | '.' :: c :: r =>
    if c.isDigit then (some (c :: r.takeWhile Char.isDigit), r.dropWhile Char.isDigit) else (none, s)
  | _ => (none, s)

/-- The exponent at the front: an `e`, a sign or none, digits. -/
def takeExponent (s : Text) : Option Int × Text :=
  match s with
  | c :: r =>
    if c = 'e' ∨ c = 'E' then
      let (negative, digits) := takeSign r
      let written := digits.takeWhile Char.isDigit
      if written.isEmpty then (none, s)
      else
        (some (if negative then -(digitsValue written : Int) else digitsValue written),
          digits.dropWhile Char.isDigit)
    else (none, s)
  | [] => (none, s)

/-- The number at the front. It is a whole number unless it has a fraction or an exponent. -/
def readNumber (s : Text) : Except DataFault (Value × Text) :=
  let (negative, r) := match s with
    | '-' :: r => (true, r)
    | _ => (false, s)
  let whole := match r with
    | '0' :: _ => ['0']
    | _ => r.takeWhile Char.isDigit
  if whole.isEmpty then .error ⟨.noValue, s⟩
  else
    let (places, rest) := takePlaces (r.drop whole.length)
    let (exponent, rest) := takeExponent rest
    if places.isNone && exponent.isNone then
      if whole.length > maxDigits then .error ⟨.tooManyDigits whole.length, s⟩
      else
        .ok (.int (if negative then -(digitsValue whole : Int) else digitsValue whole), rest)
    else
      let places := places.getD []
      .ok (.double (Double.ofDecimal negative (digitsValue (whole ++ places))
        (exponent.getD 0 - places.length)), rest)

/-- The words for values, with what they stand for. -/
def words : List (Text × Value) :=
  [("null".toList, .null), ("true".toList, .bool true), ("false".toList, .bool false),
    ("NaN".toList, .double (.nan false)), ("Infinity".toList, .double (.infinity false)),
    ("-Infinity".toList, .double (.infinity true))]

/-- A value without parts at the front: a word or a number. -/
def readSimple (s : Text) : Except DataFault (Value × Text) :=
  match words.find? fun w => w.1.isPrefixOf s with
  | some (w, v) => .ok (v, s.drop w.length)
  | none => readNumber s

mutual

/-- The value at the front, and the text after it. The fuel bounds the parts that are read. -/
def readValue : Nat → Text → Except DataFault (Value × Text)
  | 0, s => .error ⟨.noValue, s⟩
  | fuel + 1, s =>
    match s with
    | '\x22' :: r =>
      match stringAfterQuote r with
      | .ok (t, rest) => .ok (.text t, rest)
      | .error f => .error f
    | '{' :: r =>
      match skip r with
      | '}' :: rest => .ok (.object [], rest)
      | r => readFields fuel [] r
    | '[' :: r =>
      match skip r with
      | ']' :: rest => .ok (.list [], rest)
      | r => readItems fuel [] r
    | s => readSimple s

/-- The items of a list after those in `done`, which are backwards. -/
def readItems : Nat → List Value → Text → Except DataFault (Value × Text)
  | 0, _, s => .error ⟨.noValue, s⟩
  | fuel + 1, done, s =>
    match readValue fuel s with
    | .error f => .error f
    | .ok (v, rest) =>
      match skip rest with
      | ']' :: rest => .ok (.list (v :: done).reverse, rest)
      | ',' :: rest => readItems fuel (v :: done) (skip rest)
      | rest => .error ⟨.noComma, rest⟩

/-- The fields of an object after those in `done`. The last value of a name counts. -/
def readFields : Nat → List (Text × Value) → Text → Except DataFault (Value × Text)
  | 0, _, s => .error ⟨.noValue, s⟩
  | fuel + 1, done, s =>
    match s with
    | '\x22' :: r =>
      match stringAfterQuote r with
      | .error f => .error f
      | .ok (k, rest) =>
        match skip rest with
        | ':' :: rest =>
          match readValue fuel (skip rest) with
          | .error f => .error f
          | .ok (v, rest) =>
            match skip rest with
            | '}' :: rest => .ok (.object (put k v done), rest)
            | ',' :: rest => readFields fuel (put k v done) (skip rest)
            | rest => .error ⟨.noComma, rest⟩
        | rest => .error ⟨.noColon, rest⟩
    | s => .error ⟨.noName, s⟩

end

/-- Reads a whole text as one value. -/
def read (source : Text) : Except DataFault Value :=
  if source.head? = some '\ufeff' then .error ⟨.byteOrderMark, source⟩
  else
    match readValue (2 * source.length + 2) (skip source) with
    | .error f => .error f
    | .ok (v, rest) =>
      match skip rest with
      | [] => .ok v
      | rest => .error ⟨.extra, rest⟩

end Value

end StyleSplice
