import StyleSplice.Host.Label
import StyleSplice.Number.Reader
import StyleSplice.Url.Target
import StyleSplice.Web.Percent

/-!
# Addresses of pages

The address that a request goes to. Every part is brought into a form in ASCII: the scheme and the
host in small letters, a host beyond ASCII by its labels, other characters behind percent signs, and a
path without dot segments. Only the scope of an address of groups stays as it is.
-/

namespace StyleSplice

/-- What can be wrong with an address. `part` names the part that was given by itself. -/
inductive AddressFault
  | tooLong (part : Option String)
  | control (part : Option String) (c : Char) (index : Nat)
  | badPort (port : Text)
  | badIPv4 (host : Text)
  | badIPv6 (host : Text)
  | badHost (host : Text)
  /-- A path that does not start with a slash, behind an authority. -/
  | unrooted
  | doubleSlash
  | leadingColon
deriving DecidableEq, Repr

/-- The wording of a fault. -/
def AddressFault.message : AddressFault → Text
  | .tooLong none => "URL too long".toList
  | .tooLong (some part) => ("URL component '" ++ part ++ "' too long").toList
  | .control part c index =>
    let place := (part.map fun p => " " ++ p ++ " component").getD ""
    ("Invalid non-printable ASCII character in URL" ++ place ++ ", ").toList ++
      Text.quoted [c] ++ " at position ".toList ++ Text.ofNat index ++ ['.']
  | .badPort port => "Invalid port: ".toList ++ port.quoted
  | .badIPv4 host => "Invalid IPv4 address: ".toList ++ host.quoted
  | .badIPv6 host => "Invalid IPv6 address: ".toList ++ host.quoted
  | .badHost host => "Invalid IDNA hostname: ".toList ++ host.quoted
  | .unrooted => "For absolute URLs, path must be empty or begin with '/'".toList
  | .doubleSlash => "Relative URLs cannot have a path starting with '//'".toList
  | .leadingColon => "Relative URLs cannot have a path starting with ':'".toList

/-- An address, its parts in their forms. -/
structure Address where
  scheme : Text := []
  userInfo : Text := []
  host : Text := []
  port : Option Int := none
  path : Text := []
  query : Option Text := none
  fragment : Option Text := none
deriving DecidableEq, Repr, Inhabited

namespace Address

/-- The longest address that is read. -/
def maxLength : Nat := 65536

/-- Checks the length of a text and that it has no controls of ASCII. -/
def checkText (part : Option String) (s : Text) : Except AddressFault Unit :=
  if s.length > maxLength then .error (.tooLong part)
  else
    let isControl (c : Char) := c.toNat < 32 || c.toNat == 127
    match s.find? isControl with
    | some c => .error (.control part c (s.findIdx isControl))
    | none => .ok ()

/-- The parts of an address as they are written. -/
structure Raw where
  scheme : Text := []
  userInfo : Text := []
  host : Text := []
  port : Option Text := none
  path : Text := []
  query : Option Text := none
  fragment : Option Text := none

/-- The text up to the first `mark`, and the text after it, if there is one. -/
def cutOff (mark : Char) (s : Text) : Text × Option Text :=
  match Text.cutAt (· == mark) s with
  | some (front, rest) => (front, some rest)
  | none => (s, none)

/-- The scheme at the front, which may be empty, and the text after its colon. -/
def cutScheme (s : Text) : Text × Text :=
  match Text.cutAt (· == ':') s with
  | some ([], rest) => ([], rest)
  | some (c :: w, rest) =>
    if c.isAlpha && w.all UrlParts.isSchemeChar then (c :: w, rest) else ([], s)
  | none => ([], s)

/-- The host at the front of an authority without user information, and the text after it. A host in
brackets goes up to the last closing one. -/
def cutHost (s : Text) : Text × Text :=
  let plain := (s.takeWhile (· != ':'), s.dropWhile (· != ':'))
  match s with
  | '[' :: _ =>
    match Text.cutLast (· == ']') s with
    | some (inner, rest) => (inner ++ [']'], rest)
    | none => plain
  | _ => plain

/-- The user information, host and port of an authority. -/
def Raw.withAuthority (r : Raw) (authority : Text) : Raw :=
  let (userInfo, rest) := (Text.cutLast (· == '@') authority).getD ([], authority)
  let (host, rest) := cutHost rest
  let port := match rest with
    | ':' :: port => port
    | port => port
  { r with userInfo, host, port := if port.isEmpty then none else some port }

/-- Cuts an address into its parts. -/
def Raw.ofText (s : Text) : Raw :=
  let (s, fragment) := cutOff '#' s
  let (s, query) := cutOff '?' s
  let (scheme, s) := cutScheme s
  let (authority, path) := UrlParts.splitAuthority s
  Raw.withAuthority { scheme, path, query, fragment } authority

/-- Whether a host has the form of four numbers. -/
def looksLikeIPv4 (host : Text) : Bool :=
  let parts := host.splitOn '.'
  parts.length = 4 && parts.all fun p => !p.isEmpty && p.all Char.isDigit

/-- The form of a host in ASCII. An address of groups loses its brackets. -/
def normalHost (host : Text) : Except AddressFault Text :=
  if host.isEmpty then .ok []
  else if looksLikeIPv4 host then if isIPv4 host then .ok host else .error (.badIPv4 host)
  else if host.head? = some '[' && host.length ≠ 1 && host.getLast? = some ']' then
    let inner := (host.drop 1).dropLast
    if isIPv6 inner then .ok inner else .error (.badIPv6 host)
  else if Host.isAscii host then .ok (Percent.quote Percent.inHost (host.map Char.toLower))
  else
    match Host.writeName host.lower with
    | .ok name => .ok name
    | .error _ => .error (.badHost host)

/-- The port that a scheme has by itself. -/
def defaultPort? (scheme : Text) : Option Int :=
  ([("ftp", 21), ("http", 80), ("https", 443), ("ws", 80), ("wss", 443)].find? fun x =>
    x.1.toList == scheme).map Prod.snd

/-- The port that is written; none if the scheme, as it was written, has it by itself. -/
def normalPort (scheme : Text) : Option Text → Except AddressFault (Option Int)
  | none => .ok none
  | some port =>
    match readInt? port with
    | none => .error (.badPort port)
    | some n => .ok (if defaultPort? scheme = some n then none else some n)

/-- The segments that a path passes through, last first, after `seen`. A segment that leads up takes
the last one away, but not the root. -/
def climb (seen : List Text) : List Text → List Text
  | [] => seen
  | s :: rest =>
    if s = ['.'] then climb seen rest
    else if s = ['.', '.'] then climb (if seen = [[]] then seen else seen.drop 1) rest
    else climb (s :: seen) rest

/-- The path without dot segments. -/
def normalPath (path : Text) : Text :=
  let segments := path.splitOn '/'
  if segments.any UrlParts.isDotSegment then Text.joinWith ['/'] (climb [] segments).reverse
  else path

/-- Checks that a path can be told from the other parts. -/
def checkPath (path : Text) (hasScheme hasAuthority : Bool) : Except AddressFault Unit :=
  if hasAuthority then
    if !path.isEmpty && path.head? != some '/' then .error .unrooted else .ok ()
  else if hasScheme then .ok ()
  else if startsSlashed path then .error .doubleSlash
  else if path.head? = some ':' then .error .leadingColon
  else .ok ()

/-- The address with the given parts, each brought into its form. -/
def ofRaw (r : Raw) : Except AddressFault Address := do
  let userInfo := Percent.quote Percent.inUserInfo r.userInfo
  let host ← normalHost r.host
  let port ← normalPort r.scheme r.port
  let hasScheme := !r.scheme.isEmpty
  let hasAuthority := !userInfo.isEmpty || !host.isEmpty || port.isSome
  checkPath r.path hasScheme hasAuthority
  let path := if hasScheme || hasAuthority then normalPath r.path else r.path
  return {
    scheme := r.scheme.map Char.toLower
    userInfo, host, port
    path := Percent.quote Percent.inPath path
    query := r.query.map (Percent.quote Percent.inQuery)
    fragment := r.fragment.map (Percent.quote Percent.inFragment) }

/-- Reads an address. -/
def read (s : Text) : Except AddressFault Address := do
  checkText none s
  ofRaw (.ofText s)

/-- The host as it is written in an address. -/
def hostText (a : Address) : Text :=
  if a.host.contains ':' then '[' :: a.host ++ [']'] else a.host

/-- The authority. -/
def authority (a : Address) : Text :=
  (if a.userInfo.isEmpty then [] else a.userInfo ++ ['@']) ++ a.hostText ++
    match a.port with
    | some n => ':' :: Text.ofInt n
    | none => []

/-- The text of an address. -/
def text (a : Address) : Text :=
  (if a.scheme.isEmpty then [] else a.scheme ++ [':']) ++
    (if a.authority.isEmpty then [] else '/' :: '/' :: a.authority) ++ a.path ++
    (match a.query with
    | some q => '?' :: q
    | none => []) ++
    match a.fragment with
    | some f => '#' :: f
    | none => []

/-- Whether the address has a scheme and a host. -/
def isComplete (a : Address) : Bool := !a.scheme.isEmpty && !a.host.isEmpty

/-- The host that people read. -/
def shownHost (a : Address) : Except Host.NameFault Text :=
  if Host.labelPrefix.isPrefixOf a.host then Host.readName a.host else .ok a.host

/-- The fragment that people read. -/
def shownFragment (a : Address) : Text := Percent.unquote (a.fragment.getD [])

/-- The parts of an address, to be read again. -/
def raw (a : Address) : Raw :=
  Raw.withAuthority
    { scheme := a.scheme, path := a.path, query := a.query, fragment := a.fragment } a.authority

/-- Checks the parts of an address that are read again, in their order. -/
def checkParts (a : Address) : Except AddressFault Unit := do
  checkText (some "scheme") a.scheme
  checkText (some "authority") a.authority
  checkText (some "path") a.path
  checkText (some "query") (a.query.getD [])
  checkText (some "fragment") (a.fragment.getD [])

/-- The address with another host. -/
def withHost (a : Address) (host : Text) : Except AddressFault Address := do
  let bare := host.contains ':' && !(host.head? = some '[' && host.getLast? = some ']')
  let host := if bare then '[' :: host ++ [']'] else host
  a.checkParts
  checkText (some "host") host
  ofRaw { a.raw with host }

/-- The address with another fragment. -/
def withFragment (a : Address) (fragment : Text) : Except AddressFault Address := do
  let bare := { a with fragment := none }
  bare.checkParts
  checkText (some "fragment") fragment
  ofRaw { a.raw with fragment := some fragment }

/-- The address of a request. What lacks a scheme or a host becomes a path from the root, and loses
its fragment. -/
def target (a : Address) : Except AddressFault Address :=
  if a.isComplete then .ok a
  else do
    let path := '/' :: a.path.dropWhile (· == '/')
    let b : Address := { path, query := a.query }
    b.checkParts
    ofRaw b.raw

end Address

end StyleSplice
