import StyleSplice.Web.Server

/-!
# Redirects

A page may name another address to go to, relative to its own. The fragment of the request goes along
unless the new address has one.
-/

namespace StyleSplice

/-- What can be wrong with a request before an answer is in sight. -/
inductive WebFault
  | address (f : AddressFault)
  /-- The address that a page points to. -/
  | location (f : AddressFault)
  | name (f : Host.NameFault)
  | url (f : UrlFault)
  | wire (f : BeyondAscii)
  /-- The address has no scheme. -/
  | noScheme (written : Text)
  | mishap (m : Mishap) (message : Text)
deriving DecidableEq, Repr

/-- The wording of a fault. -/
def WebFault.message : WebFault → Text
  | .address f => f.message
  | .location f => "Invalid URL in location header: ".toList ++ f.message ++ ['.']
  | .name f => f.message
  | .url f => f.message.toList
  | .wire f => f.message
  | .noScheme written => "unknown url type: ".toList ++ written.quoted
  | .mishap _ message => message

namespace Address

/-- The host that people read, for a request. -/
def readHost (a : Address) : Except WebFault Text := a.shownHost.mapError .name

/-- Checks that the host and the port can go over the wire. -/
def checkWire (a : Address) : Except WebFault Unit :=
  (BeyondAscii.check { a with userInfo := [] }.authority).mapError .wire

/-- The address, with the host of `base` if it has a scheme and no host. -/
def borrowHost (base a : Address) : Except WebFault Address := do
  if a.scheme.isEmpty then return a
  if !(← a.readHost).isEmpty then return a
  (a.withHost (← base.readHost)).mapError .address

/-- The address as seen from `base`, if it is not complete. -/
def completed (base a : Address) : Except WebFault Address := do
  if a.isComplete then return a
  let joined ← (UrlParts.join base.text a.text).mapError .url
  (read joined).mapError .address

/-- The address, with the fragment of `base` if it has none. -/
def borrowFragment (base a : Address) : Except WebFault Address :=
  if base.shownFragment.isEmpty || !a.shownFragment.isEmpty then .ok a
  else (a.withFragment base.shownFragment).mapError .address

/-- The port of a request. -/
def portOrDefault (a : Address) : Option Int :=
  match a.port with
  | some n => some n
  | none =>
    if a.scheme = "http".toList then some 80
    else if a.scheme = "https".toList then some 443
    else none

/-- Whether two addresses have one origin. With one scheme the host of `b` is read first. -/
def sameOrigin (a b : Address) : Except WebFault Bool := do
  if a.scheme = b.scheme then
    let there ← b.readHost
    let here ← a.readHost
    return here = there && a.portOrDefault = b.portOrDefault
  else
    let _ ← a.readHost
    let _ ← b.readHost
    return false

/-- The address of the request that follows one to `base` whose page points to `location`. -/
def redirected (base : Address) (location : Text) : Except WebFault Address := do
  let a ← (read location).mapError .location
  let a ← borrowHost base a
  let a ← completed base a
  let a ← borrowFragment base a
  if !(← sameOrigin base a) then a.checkWire
  return a

end Address

end StyleSplice
