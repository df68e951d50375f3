import StyleSplice.Url.Address
import StyleSplice.Text.Quoted

/-!
# The parts of a URL

A URL is cut into scheme, authority, path, query and fragment. Nothing is decoded. The authority is
checked for brackets that hold no address and for characters that a normal form would turn into
delimiters.
-/

namespace StyleSplice

/-- The parts of a URL. A part that is left out is empty. -/
structure UrlParts where
  scheme : Text := []
  authority : Text := []
  path : Text := []
  query : Text := []
  fragment : Text := []
deriving DecidableEq, Repr, Inhabited

/-- What can be wrong with the authority of a URL. -/
inductive UrlFault
  /-- A bracket without its partner, or text between an address and its port. -/
  | brackets
  /-- A host in brackets that announces a future kind of address and does not have its form. -/
  | futureAddress
  /-- A host in brackets that is no address. -/
  | noAddress (host : Text)
  /-- A host in brackets that is an address of four octets. -/
  | bracketedIPv4
  /-- A character that compatibility composition turns into a delimiter. -/
  | delimiters (authority : Text)
deriving DecidableEq, Repr

/-- The wording of a fault. -/
def UrlFault.message : UrlFault → String
  | .brackets => "Invalid IPv6 URL"
  | .futureAddress => "IPvFuture address is invalid"
  | .noAddress host => host.quoted.str ++ " does not appear to be an IPv4 or IPv6 address"
  | .bracketedIPv4 => "An IPv4 address cannot be in brackets"
  | .delimiters authority =>
    "netloc '" ++ authority.str ++ "' contains invalid characters under NFKC normalization"

namespace UrlParts

/-- Characters that are dropped from a URL wherever they stand. -/
def isDropped (c : Char) : Bool := c == '\t' || c == '\r' || c == '\n'

/-- Controls and the space, which are dropped from the front of a URL. -/
def isControlOrSpace (c : Char) : Bool := c.toNat ≤ 32

/-- The characters of a scheme. -/
def isSchemeChar (c : Char) : Bool := c.isAlphanum || c == '+' || c == '-' || c == '.'

/-- The scheme at the front, in small letters, and the text after its colon. -/
def cutScheme? (s : Text) : Option (Text × Text) :=
  match Text.cutAt (· == ':') s with
  | some (c :: w, rest) =>
    if c.isAlpha && w.all isSchemeChar then some ((c :: w).map Char.toLower, rest) else none
  | _ => none

/-- Characters whose compatibility form holds a delimiter of URLs. -/
def hidesDelimiter (c : Char) : Bool :=
  [0x2047, 0x2048, 0x2049, 0x2100, 0x2101, 0x2105, 0x2106, 0x2A74, 0xFE13, 0xFE16, 0xFE55, 0xFE56,
    0xFE5F, 0xFE6B, 0xFF03, 0xFF0F, 0xFF1A, 0xFF1F, 0xFF20].contains c.toNat

/-- Whether the host of a future kind has its form: `v`, hexadecimal digits, a dot, more text. -/
def isFutureAddress (host : Text) : Bool :=
  match Text.cutAt (· == '.') (host.drop 1) with
  | some (version, rest) =>
    !version.isEmpty && !rest.isEmpty &&
      version.all fun c => c.isDigit || ('a' ≤ c && c ≤ 'f') || ('A' ≤ c && c ≤ 'F')
  | none => false

/-- Checks a host that stands in brackets. -/
def checkBracketed (host : Text) : Except UrlFault Unit :=
  if host.head? = some 'v' then
    if isFutureAddress host then .ok () else .error .futureAddress
  else if isIPv4 host then .error .bracketedIPv4
  else if isIPv6 host then .ok ()
  else .error (.noAddress host)

/-- The text after the last `@`. -/
def hostAndPort (authority : Text) : Text :=
  match Text.cutLast (· == '@') authority with
  | some (_, rest) => rest
  | none => authority

/-- The part before the first character that satisfies `p`, or all of the text. -/
def before (p : Char → Bool) (s : Text) : Text := s.takeWhile fun c => !p c

/-- Checks the brackets of an authority. -/
def checkBrackets (authority : Text) : Except UrlFault Unit :=
  let opened := authority.contains '['
  let closed := authority.contains ']'
  if opened != closed then .error .brackets
  else if !opened then .ok ()
  else
    let host := hostAndPort authority
    match Text.cutAt (· == '[') host with
    | some (front, inner) =>
      let port := ((Text.cutAt (· == ']') inner).map Prod.snd).getD []
      if !front.isEmpty then .error .brackets
      else if !port.isEmpty && port.head? != some ':' then .error .brackets
      else checkBracketed (before (· == ']') inner)
    | none => checkBracketed (before (· == ':') host)

/-- The text up to the first `mark`, and the text after it, empty without one. -/
def cutMark (mark : Char) (s : Text) : Text × Text :=
  (Text.cutAt (· == mark) s).getD (s, [])

/-- The path, query and fragment of the text after the authority. -/
def splitTail (s : Text) : Text × Text × Text :=
  let (s, fragment) := cutMark '#' s
  let (path, query) := cutMark '?' s
  (path, query, fragment)

/-- The authority and the text after it. -/
def splitAuthority (s : Text) : Text × Text :=
  match s with
  | '/' :: '/' :: r =>
    let ends := fun c => c == '/' || c == '?' || c == '#'
    (r.takeWhile fun c => !ends c, r.dropWhile fun c => !ends c)
  | _ => ([], s)

/-- The text of a URL with the characters gone that do not count. -/
def cleaned (s : Text) : Text := Text.without isDropped (Text.trimStart isControlOrSpace s)

/-- The parts of a URL, with `scheme` for one that has none. -/
def parse (s : Text) (scheme : Text := []) : Except UrlFault UrlParts :=
  let (scheme, s) := (cutScheme? (cleaned s)).getD (scheme, cleaned s)
  let (authority, s) := splitAuthority s
  let (path, query, fragment) := splitTail s
  match checkBrackets authority with
  | .error f => .error f
  | .ok () =>
    if authority.any hidesDelimiter then .error (.delimiters authority)
    else .ok { scheme, authority, path, query, fragment }

end UrlParts

end StyleSplice
