import StyleSplice.Options.Basic
import StyleSplice.Number.Reader

/-!
# Reading options

Options come as named settings. Every setting is checked when it is read, the bounds of the counts
at the end; the first fault decides.
-/

namespace StyleSplice

/-- The options by name. -/
inductive OptionName
  | recursive
  | anchorReferences
  | maxDepth
  | userAgent
  | modernBrowser
  | headers
  | timeouts
  | workers
  | defaultScheme
deriving DecidableEq, Repr

/-- The name of an option in messages. -/
def OptionName.text : OptionName → String
  | .recursive => "recursive"
  | .anchorReferences => "resolve_urls"
  | .maxDepth => "max_depth"
  | .userAgent => "user_agent"
  | .modernBrowser => "modern_browser"
  | .headers => "headers"
  | .timeouts => "timeout"
  | .workers => "max_workers"
  | .defaultScheme => "default_scheme"

/-- The spellings of the options. -/
def OptionName.spellings : List (String × OptionName) :=
  [("recursive", .recursive), ("resolveUrls", .anchorReferences),
    ("resolve_urls", .anchorReferences), ("maxDepth", .maxDepth), ("max_depth", .maxDepth),
    ("userAgent", .userAgent), ("user_agent", .userAgent), ("modernBrowser", .modernBrowser),
    ("modern_browser", .modernBrowser), ("headers", .headers), ("timeout", .timeouts),
    ("maxWorkers", .workers), ("max_workers", .workers), ("defaultScheme", .defaultScheme),
    ("default_scheme", .defaultScheme)]

/-- The option with a spelling. -/
def OptionName.ofText? (s : Text) : Option OptionName :=
  (spellings.find? fun x => x.1.toList == s).map Prod.snd

/-- What can be wrong with a setting. -/
inductive OptionFault
  | unknown (key : Text)
  | notBoolean (name : OptionName) (v : Value)
  | notInteger (name : OptionName) (v : Value)
  | notText (name : OptionName) (v : Value)
  | headersNotObject (v : Value)
  | timeoutKeys (keys : List Text)
  | notTimeout (v : Value)
  | negativeDepth (n : Int)
  | noWorkers (n : Int)
  /-- A text that is no number, where one is asked for. -/
  | notNumeral (s : Text)
  /-- A value of a kind that is no number. -/
  | notNumber (v : Value)
  /-- A whole number out of the range of floating point. -/
  | tooLarge
  /-- A whole number that has too many digits to be written. -/
  | tooManyDigits
deriving Repr

/-- The kinds of faults: the settings themselves are wrong, or a conversion fails. -/
inductive OptionFaultKind
  | configuration
  | badValue
  | badType
  | overflow
deriving DecidableEq, Repr

def OptionFault.kind : OptionFault → OptionFaultKind
  | .notNumeral _ | .tooManyDigits => .badValue
  | .notNumber _ => .badType
  | .tooLarge => .overflow
  | _ => .configuration

/-- The wording of a fault. -/
def OptionFault.message : OptionFault → String
  | .unknown key => "Unknown option: " ++ key.quoted.str
  | .notBoolean name v => name.text ++ " must be a boolean, got " ++ v.literal.str
  | .notInteger name v => name.text ++ " must be an integer, got " ++ v.literal.str
  | .notText name v => name.text ++ " must be a string, got " ++ v.literal.str
  | .headersNotObject v => "headers must be a mapping, got " ++ v.literal.str
  | .timeoutKeys keys => "Unknown timeout keys: " ++ (Value.list (keys.map .text)).literal.str
  | .notTimeout v => "timeout must be a number or mapping, got " ++ v.literal.str
  | .negativeDepth n => "max_depth must be >= 0, got " ++ toString n
  | .noWorkers n => "max_workers must be >= 1, got " ++ toString n
  | .notNumeral s => "could not convert string to float: " ++ s.quoted.str
  | .notNumber v =>
    "float() argument must be a string or a real number, not '" ++ v.kindName ++ "'"
  | .tooLarge => "int too large to convert to float"
  | .tooManyDigits =>
    "Exceeds the limit (" ++ toString maxDigits ++
      " digits) for integer string conversion; use sys.set_int_max_str_digits() to increase the limit"

/-- A setting: a value that is to be checked, or something ready to use. -/
inductive Setting
  | value (v : Value)
  | timeouts (t : Timeouts)
  /-- Names and values of any kind. -/
  | headers (h : List (Value × Value))
deriving Repr

/-- The settings read so far. The counts are not yet checked. -/
structure Draft where
  recursive : Bool := false
  anchorReferences : Bool := false
  maxDepth : Option Int := none
  userAgent : Option Text := none
  modernBrowser : Bool := false
  headers : List (Text × Text) := []
  timeouts : Timeouts := {}
  workers : Int := 8
  defaultScheme : Option Text := some "https".toList

namespace Value

mutual

/-- Whether no whole number in the value has too many digits to be written. -/
def isWritable : Value → Bool
  | .int n => (Text.ofNat n.natAbs).length ≤ maxDigits
  | .list items => areWritable items
  | .object fields => haveWritable fields
  | _ => true

/-- Whether all of the values can be written. -/
def areWritable : List Value → Bool
  | [] => true
  | v :: vs => v.isWritable && areWritable vs

/-- Whether the values of all names can be written. -/
def haveWritable : List (Text × Value) → Bool
  | [] => true
  | (_, v) :: fields => v.isWritable && haveWritable fields

end

/-- The value as a floating point number. -/
def toDouble : Value → Except OptionFault Double
  | .double x => .ok x
  | .text s =>
    match readDouble? s with
    | some x => .ok x
    | none => .error (.notNumeral s)
  | v =>
    match v.asInt? with
    | some n =>
      match Double.ofInt? n with
      | some x => .ok x
      | none => .error .tooLarge
    | none => .error (.notNumber v)

end Value

/-- The value that the message of a fault shows. -/
def OptionFault.shown? : OptionFault → Option Value
  | .notBoolean _ v | .notInteger _ v | .notText _ v | .headersNotObject v | .notTimeout v => some v
  | .negativeDepth n | .noWorkers n => some (.int n)
  | _ => none

/-- The fault that comes up when the message is composed. -/
def OptionFault.raised (f : OptionFault) : OptionFault :=
  if (f.shown?.map Value.isWritable).getD true then f else .tooManyDigits

namespace Options

/-- Puts a text into a list in ascending order. -/
def insertText (s : Text) : List Text → List Text
  | [] => [s]
  | t :: rest => if t < s then t :: insertText s rest else s :: t :: rest

/-- Reads the fields of timeouts, in their order. -/
def readTimeoutFields (t : Timeouts) : List (Text × Value) → Except OptionFault Timeouts
  | [] => .ok t
  | (k, v) :: rest =>
    match v.toDouble with
    | .error f => .error f
    | .ok x =>
      readTimeoutFields
        (if k = "connect".toList then { t with connect := x } else { t with read := x }) rest

/-- Reads timeouts: one number for both, or an object. -/
def readTimeouts (v : Value) : Except OptionFault Timeouts :=
  match v with
  | .double x => .ok ⟨x, x⟩
  | .int _ => v.toDouble.map fun x => ⟨x, x⟩
  | .object fields =>
    let unknown := (fields.map Prod.fst).filter fun k =>
      k ≠ "connect".toList ∧ k ≠ "read".toList
    if unknown.isEmpty then readTimeoutFields {} fields
    else .error (.timeoutKeys (unknown.foldr insertText []))
  | v => .error (.notTimeout v)

/-- Reads a boolean setting. -/
def readBool (name : OptionName) : Value → Except OptionFault Bool
  | .bool b => .ok b
  | v => .error (.notBoolean name v)

/-- Reads a whole number. -/
def readInt (name : OptionName) : Value → Except OptionFault Int
  | .int n => .ok n
  | v => .error (.notInteger name v)

/-- Reads a bound of the depth or nothing. -/
def readDepth : Value → Except OptionFault (Option Int)
  | .null => .ok none
  | v => (readInt .maxDepth v).map some

/-- Reads a text or nothing. -/
def readText (name : OptionName) : Value → Except OptionFault (Option Text)
  | .null => .ok none
  | .text s => .ok (some s)
  | v => .error (.notText name v)

/-- Writes out headers. A later value of the same name counts. -/
def writeHeaders (pairs : List (Value × Value)) : Except OptionFault (List (Text × Text)) :=
  if pairs.all fun x => x.1.isWritable && x.2.isWritable then
    .ok (pairs.foldl (fun hs x => put x.1.plain x.2.plain hs) [])
  else .error .tooManyDigits

/-- Reads headers. Values of other kinds than text are written out. -/
def readHeaders : Value → Except OptionFault (List (Text × Text))
  | .object fields => writeHeaders (fields.map fun x => (.text x.1, x.2))
  | v => .error (.headersNotObject v)

/-- Enters one value into the draft. -/
def enterValue (d : Draft) (name : OptionName) (v : Value) : Except OptionFault Draft :=
  match name with
  | .recursive => (readBool name v).map fun b => { d with recursive := b }
  | .anchorReferences => (readBool name v).map fun b => { d with anchorReferences := b }
  | .modernBrowser => (readBool name v).map fun b => { d with modernBrowser := b }
  | .maxDepth => (readDepth v).map fun n => { d with maxDepth := n }
  | .workers => (readInt name v).map fun n => { d with workers := n }
  | .userAgent => (readText name v).map fun s => { d with userAgent := s }
  | .defaultScheme => (readText name v).map fun s => { d with defaultScheme := s }
  | .headers => (readHeaders v).map fun h => { d with headers := h }
  | .timeouts => (readTimeouts v).map fun t => { d with timeouts := t }

/-- Enters one setting into the draft. -/
def enter (d : Draft) (key : Text) (s : Setting) : Except OptionFault Draft :=
  match OptionName.ofText? key with
  | none => .error (.unknown key)
  | some name =>
    match s with
    | .value v => enterValue d name v
    | .timeouts t => .ok { d with timeouts := t }
    | .headers h => (writeHeaders h).map fun h => { d with headers := h }

/-- Enters settings into the draft, in their order. -/
def enterAll (d : Draft) : List (Text × Setting) → Except OptionFault Draft
  | [] => .ok d
  | (key, s) :: rest =>
    match enter d key s with
    | .error f => .error f
    | .ok d => enterAll d rest

/-- The options of a draft whose counts are in their bounds. -/
def ofDraft (d : Draft) : Except OptionFault Options :=
  let depthFault := d.maxDepth.filter fun n => n < 0
  match depthFault with
  | some n => .error (.negativeDepth n)
  | none =>
    if h : 0 < d.workers then
      .ok
        { recursive := d.recursive
          anchorReferences := d.anchorReferences
          maxDepth := d.maxDepth.map Int.toNat
          userAgent := d.userAgent
          modernBrowser := d.modernBrowser
          headers := d.headers
          timeouts := d.timeouts
          workers := d.workers.toNat
          defaultScheme := d.defaultScheme
          workers_pos := by omega }
    else .error (.noWorkers d.workers)

/-- Reads options from settings. A later setting of the same option counts. -/
def ofSettings (settings : List (Text × Setting)) : Except OptionFault Options :=
  match enterAll {} settings with
  | .error f => .error f.raised
  | .ok d => (ofDraft d).mapError OptionFault.raised

end Options

end StyleSplice
