import StyleSplice.Options.Basic
import StyleSplice.Web.Redirect

/-!
# Clients

A client asks a server for a page and follows where the page points to, up to a limit. What it says of
a page that it could not get becomes a fault of the run.
-/

namespace StyleSplice

/-- A client, with the headers of all its requests. Their names are in small letters. -/
structure Client where
  headers : Headers := []
  timeouts : Timeouts := {}

/-- A page that came back, with the address that it was found at. -/
structure Received where
  address : Address
  status : Int
  text : Text
deriving DecidableEq, Repr

/-- Why there is no page. -/
inductive Miss
  | broken (f : WebFault)
  | status (code : Int)
deriving DecidableEq, Repr

/-- A request that reached the server. -/
structure Visit where
  address : Address
  headers : Headers
deriving DecidableEq, Repr

/-- What came of a request: the visits in their order, and the page. -/
structure Retrieval where
  visits : List Visit
  result : Except Miss Received

/-- The fault of a run for a request to `url` that failed. -/
def WebFault.toFault (url : Text) : WebFault → Fault
  | .mishap m message =>
    let orElse (front : String) := if message.isEmpty then front.toList ++ url else message
    if m.isTimeout then .timedOut (orElse "Timed out: ") url
    else .network (orElse "Request failed: ") url
  | .location f => .network (WebFault.location f).message url
  | f => .network ("Invalid URL ".toList ++ url.quoted ++ ": ".toList ++ f.message) url

/-- The fault of a run for a page of `url` that is missing. -/
def Miss.toFault (url : Text) : Miss → Fault
  | .broken f => f.toFault url
  | .status code => .ofStatus code url

namespace Client

/-- A client with headers, which must be in ASCII. -/
def withHeaders (headers : Headers) (timeouts : Timeouts) : Except BeyondAscii Client := do
  Header.check headers
  return { headers := Header.lowered headers, timeouts }

/-- The first visit of a request: where it goes, and its headers. -/
def prepare (c : Client) (url : Text) (extra : Headers) : Except WebFault Visit := do
  let written ← (Address.read url).mapError .address
  let address ← written.target.mapError .address
  (Header.check extra).mapError .wire
  let headers := Header.override c.headers (Header.lowered extra)
  if !Header.has "host".toList headers then
    if !(← address.readHost).isEmpty then address.checkWire
  return { address, headers }

/-- Where a visit leads. -/
inductive Lead
  | arrived (r : Received)
  | onward (a : Address)

/-- The statuses of pages that point to another one. -/
def isRedirect (status : Int) : Bool := [301, 302, 303, 307, 308].contains status

/-- Goes to an address. What a page leaves behind is filed by its address, which must have a scheme
and be a URL; so it is looked at before the status. -/
def look (server : Server) (a : Address) : Except WebFault Lead :=
  match server.react a with
  | .mishap m message => .error (.mishap m message)
  | .page status text location => do
    (location.forM BeyondAscii.check).mapError .wire
    if a.scheme.isEmpty then .error (.noScheme a.text)
    let _ ← (UrlParts.parse a.text).mapError .url
    match location.filter fun _ => isRedirect status with
    | some l => return .onward (← a.redirected l)
    | none => return .arrived ⟨a, status, text⟩

/-- Goes to an address and follows at most `more` redirects: the addresses in order, and the page. -/
def follow (server : Server) (more : Nat) (a : Address) : List Address × Except WebFault Received :=
  match look server a with
  | .error f => ([a], .error f)
  | .ok (.arrived r) => ([a], .ok r)
  | .ok (.onward b) =>
    match more with
    | 0 =>
      ([a], .error (.mishap .endlessRedirects "Exceeded maximum allowed redirects.".toList))
    | more + 1 =>
      let (rest, r) := follow server more b
      (a :: rest, r)

/-- How many redirects are followed. -/
def maxRedirects : Nat := 20

/-- Tells a page from a status that stands for none. -/
def accept (r : Except WebFault Received) : Except Miss Received :=
  match r with
  | .error f => .error (.broken f)
  | .ok r => if 300 ≤ r.status then .error (.status r.status) else .ok r

/-- Gets a page. The headers `extra` take the place of those of the client. -/
def get (c : Client) (server : Server) (url : Text) (extra : Headers) : Retrieval :=
  match c.prepare url extra with
  | .error f => ⟨[], .error (.broken f)⟩
  | .ok v =>
    let (addresses, r) := follow server maxRedirects v.address
    ⟨addresses.map fun address => { v with address }, accept r⟩

/-- The network that a client is, when asked with the same headers every time. -/
def network (c : Client) (server : Server) (headers : Headers) : Network where
  answer url :=
    match (c.get server url headers).result with
    | .ok r => .body r.text
    | .error m => .failure (m.toFault url)
  size := server.size

/-- No more addresses are visited than redirects are followed, and one. -/
theorem follow_length_le (server : Server) (more : Nat) (a : Address) :
    (follow server more a).1.length ≤ more + 1 := by
  induction more generalizing a with
  | zero => unfold follow; split <;> simp
  | succ more ih =>
    unfold follow
    split
    · simp
    · simp
    · simpa using ih _

end Client

end StyleSplice
