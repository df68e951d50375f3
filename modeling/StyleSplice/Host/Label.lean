import StyleSplice.Host.Composed
import StyleSplice.Host.Direction
import StyleSplice.Host.Joining
import StyleSplice.Host.Punycode
import StyleSplice.Text.Case
import StyleSplice.Text.Quoted

/-!
# Labels of host names

A host name is made of labels with dots between them. A label is a list of code points that may stand
together, or the ASCII text of such a list behind a prefix.
-/

namespace StyleSplice

namespace Host

/-- What can be wrong with a host name. Positions count from one. -/
inductive NameFault
  | emptyName
  | longName
  | emptyLabel
  | longLabel
  | notComposed
  | innerHyphens
  | outerHyphen
  | leadingMark
  /-- A joiner beside the wrong code points. -/
  | joiner (n position : Nat) (label : List Nat)
  | context (n position : Nat) (label : List Nat)
  | codePoint (n position : Nat) (label : List Nat)
  | direction (f : DirectionFault) (label : List Nat)
  /-- A prefix with nothing behind it. -/
  | noContent
  /-- A hyphen at the end of the ASCII text of a label. -/
  | endingHyphen
  | notReadable
deriving DecidableEq, Repr

/-- How a message shows a code point. -/
def showPoint (n : Nat) : Text :=
  let digits := (Nat.toDigits 16 n).map Char.toUpper
  "U+".toList ++ List.replicate (4 - digits.length) '0' ++ digits

/-- A code point in a quoted text. Half of a surrogate pair is no character and shown by its
number. -/
def quotedPoint (quote : Char) (n : Nat) : Text :=
  if 0xD800 ≤ n ∧ n ≤ 0xDFFF then "\\u".toList ++ hexDigits 4 n
  else escapeChar quote (Char.ofNat n)

/-- A label in quotes. -/
def quotedLabel (label : List Nat) : Text :=
  let q := quoteFor (label.map Char.ofNat)
  q :: label.flatMap (quotedPoint q) ++ [q]

/-- The wording of a fault of directions. -/
def DirectionFault.message (label : List Nat) : DirectionFault → Text
  | .unknown position =>
    "Unknown directionality in label ".toList ++ quotedLabel label ++ " at position ".toList ++
      Text.ofNat position
  | .first =>
    "First codepoint in label ".toList ++ quotedLabel label ++
      " must be directionality L, R or AL".toList
  | .inRightToLeft position =>
    "Invalid direction for codepoint at position ".toList ++ Text.ofNat position ++
      " in a right-to-left label".toList
  | .numbers => "Can not mix numeral types in a right-to-left label".toList
  | .inLeftToRight position =>
    "Invalid direction for codepoint at position ".toList ++ Text.ofNat position ++
      " in a left-to-right label".toList
  | .ending => "Label ends with illegal codepoint directionality".toList

/-- The wording of a fault. -/
def NameFault.message : NameFault → Text
  | .emptyName => "Empty domain".toList
  | .longName => "Domain too long".toList
  | .emptyLabel => "Empty Label".toList
  | .longLabel => "Label too long".toList
  | .notComposed => "Label must be in Normalization Form C".toList
  | .innerHyphens => "Label has disallowed hyphens in 3rd and 4th position".toList
  | .outerHyphen => "Label must not start or end with a hyphen".toList
  | .leadingMark => "Label begins with an illegal combining character".toList
  | .joiner n position label =>
    "Unknown codepoint adjacent to joiner ".toList ++ showPoint n ++ " at position ".toList ++
      Text.ofNat position ++ " in ".toList ++ quotedLabel label
  | .context n position label =>
    "Codepoint ".toList ++ showPoint n ++ " not allowed at position ".toList ++
      Text.ofNat position ++ " in ".toList ++ quotedLabel label
  | .codePoint n position label =>
    "Codepoint ".toList ++ showPoint n ++ " at position ".toList ++ Text.ofNat position ++
      " of ".toList ++ quotedLabel label ++ " not allowed".toList
  | .direction f label => f.message label
  | .noContent => "Malformed A-label, no Punycode eligible content found".toList
  | .endingHyphen => "A-label must not end with a hyphen".toList
  | .notReadable => "Invalid A-label".toList

/-- The code point of the hyphen. -/
def hyphen : Nat := 45

/-- The longest label in code points that is looked into. -/
def maxLabel : Nat := 254

/-- The longest ASCII text of a label. -/
def maxAsciiLabel : Nat := 63

/-- Checks code points in their order. `before` holds those that have been checked, backwards. -/
def checkPoints (label before : List Nat) : List Nat → Except NameFault Unit
  | [] => .ok ()
  | n :: rest =>
    let position := before.length + 1
    if allowedSet.mem n then checkPoints label (n :: before) rest
    else if isJoiner n then
      if joinerFits n before rest then checkPoints label (n :: before) rest
      else .error (.joiner n position label)
    else if needsContext n then
      if contextFits n before rest then checkPoints label (n :: before) rest
      else .error (.context n position label)
    else .error (.codePoint n position label)

/-- Checks a label. -/
def checkLabel (label : List Nat) : Except NameFault Unit :=
  if label.isEmpty then .error .emptyLabel
  else if label.length > maxLabel then .error .longLabel
  else if !isComposed label then .error .notComposed
  else if (label.drop 2).take 2 == [hyphen, hyphen] then .error .innerHyphens
  else if label.head? == some hyphen || label.getLast? == some hyphen then .error .outerHyphen
  else if (label.head?.map markSet.mem).getD false then .error .leadingMark
  else
    match checkPoints label [] label with
    | .error f => .error f
    | .ok () => (checkDirections label).mapError fun f => .direction f label

/-- Whether all code points are ASCII. -/
def isAscii (s : Text) : Bool := s.all fun c => c.toNat < 128

/-- The prefix of the ASCII text of a label. -/
def labelPrefix : Text := "xn--".toList

/-- The code points of a label that may be written in ASCII. An ASCII text stands for a label only if
the label is written as that text. -/
def readLabel (s : Text) : Except NameFault (List Nat) :=
  if !isAscii s then
    let label := s.map Char.toNat
    (checkLabel label).map fun _ => label
  else
    let s := s.map Char.toLower
    match Text.after? labelPrefix s with
    | none =>
      let label := s.map Char.toNat
      (checkLabel label).map fun _ => label
    | some content =>
      if content.isEmpty then .error .noContent
      else if content.getLast? = some '-' then .error .endingHyphen
      else
        match Punycode.decode? content with
        | none => .error .notReadable
        | some label =>
          match checkLabel label with
          | .error f => .error f
          | .ok () => if Punycode.encode label = content then .ok label else .error .notReadable

/-- The ASCII text of a label. One in ASCII is checked and stays as it is. -/
def writeLabel (s : Text) : Except NameFault Text :=
  let written :=
    if isAscii s then (readLabel s).map fun _ => s
    else
      let label := s.map Char.toNat
      (checkLabel label).map fun _ => labelPrefix ++ Punycode.encode label
  match written with
  | .error f => .error f
  | .ok t => if t.length > maxAsciiLabel then .error .longLabel else .ok t

/-- The dots between labels: the full stop and those of the scripts of East Asia. -/
def isDot (c : Char) : Bool :=
  c == '.' || c == '\u3002' || c == '\uff0e' || c == '\uff61'

/-- The longest name without a dot at its end. -/
def maxName : Nat := 253

/-- The labels of a name, and whether a dot ends it. -/
def splitName (name : Text) : List Text × Bool :=
  let labels := name.splitOnP isDot
  if labels.getLast? = some [] then (labels.dropLast, true) else (labels, false)

/-- Reads the labels of a name. -/
def readLabels : List Text → Except NameFault (List (List Nat))
  | [] => .ok []
  | s :: rest =>
    match readLabel s with
    | .error f => .error f
    | .ok label => (readLabels rest).map fun labels => label :: labels

/-- Writes the labels of a name. -/
def writeLabels : List Text → Except NameFault (List Text)
  | [] => .ok []
  | s :: rest =>
    match writeLabel s with
    | .error f => .error f
    | .ok label => (writeLabels rest).map fun labels => label :: labels

/-- Checks the length of a name before its labels are looked into. -/
def checkName (name : Text) : Except NameFault Unit :=
  if name.length > maxName + 1 then .error .longName
  else if name.isEmpty then .error .emptyName
  else .ok ()

/-- The ASCII form of a name. -/
def writeName (name : Text) : Except NameFault Text :=
  match checkName name with
  | .error f => .error f
  | .ok () =>
    let (labels, dotted) := splitName name
    match writeLabels labels with
    | .error f => .error f
    | .ok labels =>
      let written := Text.joinWith ['.'] (labels ++ if dotted then [[]] else [])
      if written.length > maxName + (if dotted then 1 else 0) then .error .longName
      else .ok written

/-- The name that an ASCII form stands for. -/
def readName (name : Text) : Except NameFault Text :=
  match checkName name with
  | .error f => .error f
  | .ok () =>
    let (labels, dotted) := splitName name
    match readLabels labels with
    | .error f => .error f
    | .ok labels =>
      .ok (Text.joinWith ['.']
        (labels.map (fun label => label.map Char.ofNat) ++ if dotted then [[]] else []))

end Host

end StyleSplice
