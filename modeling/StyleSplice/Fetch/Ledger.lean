import StyleSplice.Fetch.Network
import StyleSplice.Report.Event

/-!
# The ledger of requests

A run asks for a page once, however many imports name it. The ledger holds the answers in the order
of the first requests; it can be closed, after which only known pages are answered.
-/

namespace StyleSplice

/-- What is known about a page: its body or a fault. -/
structure FetchResult where
  url : Text
  body : Option Text := none
  fault : Option Fault := none
deriving DecidableEq, Repr

/-- Whether there is a body and no fault. -/
def FetchResult.ok (r : FetchResult) : Bool := r.fault.isNone && r.body.isSome

/-- The events of a fetch with the given answer. -/
def Answer.events (url : Text) : Answer → List Event
  | .body text => [.started url, .completed url text.length]
  | .failure f => [.started url, .failed url f.message]
  | .crash _ | .silence => [.started url]

/-- The pages that have been asked for, with their answers. -/
structure Ledger where
  entries : List (Text × Answer) := []
  /-- The addresses that the network was called for, in order. -/
  called : List Text := []
  closed : Bool := false

namespace Ledger

/-- The addresses that have been asked for, in the order of the first requests. -/
def requested (l : Ledger) : List Text := l.entries.map Prod.fst

/-- The answer for an address, if it has been asked for. -/
def answer? (l : Ledger) (url : Text) : Option Answer := field? url l.entries

/-- Asks for a page unless that has been done: the new ledger and the events of the fetch. A closed
ledger takes no new address. -/
def request (net : Network) (l : Ledger) (url : Text) : Option (Ledger × List Event) :=
  if (l.answer? url).isSome then some (l, [])
  else if l.closed then none
  else
    let a := net.answer url
    some ({ l with entries := l.entries ++ [(url, a)], called := l.called ++ [url] }, a.events url)

/-- The ledger that takes no new address. -/
def close (l : Ledger) : Ledger := { l with closed := true }

/-- Lets a silent page fail. -/
def giveUp (l : Ledger) (url : Text) (f : Fault) : Ledger :=
  { l with
    entries := l.entries.map fun x =>
      if x.1 == url && x.2 == .silence then (x.1, .failure f) else x }

/-- Takes back that the network was called for the pages. -/
def uncall (l : Ledger) (urls : List Text) : Ledger :=
  { l with called := l.called.filter fun url => !urls.contains url }

end Ledger

end StyleSplice
