import StyleSplice.Fetch.Ledger

/-!
# Sessions with a fetcher

Several users may ask a fetcher for pages, wait for them, and close it. A session is what has
happened so far, told as if each fetch had come to its end at once; every step answers with a ticket,
a result or a fault.

Fetches take their time, and only some of them can be under way together; the others are queued. Who
can call off the waiting for a page looks for the page first, and a page that is there is handed out
in any case. If it is not there yet and the waiting has been called off, the step fails, and the
queued fetches are dropped: the network is never called for their pages. A session does not keep the
time. What a user finds is part of the step.
-/

namespace StyleSplice

/-- Who may call off the waiting for a page, and what there is of the pages by then. -/
inductive Watch
  | nobody
  /-- Somebody who does not do so until the page is there. -/
  | waiting
  /-- Somebody who has done so already. The page is there in time nevertheless, unless it stays
  silent, and no fetch is queued. -/
  | calledOff
  /-- Somebody who has done so already, and the page is not there in time. The fetches of the given
  pages are queued. -/
  | tooSoon (queued : List Text)
deriving DecidableEq, Repr

/-- A step of a session. -/
inductive FetchStep
  | submit (url : Text)
  /-- Wait for the page of a ticket. -/
  | join (ticket : Nat) (watch : Watch)
  | fetch (url : Text) (watch : Watch)
  /-- Drop the queued fetches. All fetches have come to an end by then, so none is queued. -/
  | cancel
  /-- Close the fetcher. All fetches have come to an end by then. -/
  | close
  | enter
deriving DecidableEq, Repr

/-- Why a step failed. -/
inductive FetchFault
  | closed
  | crashed (message : Text)
  | calledOff
  /-- No page has the ticket. -/
  | noTicket
  /-- The page stays silent, and nobody calls off the waiting. -/
  | stalled
  /-- The fetch of the page was dropped before it began. -/
  | dropped
deriving DecidableEq, Repr

/-- What a step answers. -/
inductive FetchReply
  | ticket (n : Nat)
  | result (r : FetchResult)
  | done
deriving DecidableEq, Repr

/-- What has happened so far. -/
structure Session where
  ledger : Ledger := {}
  /-- The events of all fetches, in order. -/
  log : List Event := []
  /-- The addresses of the tickets, in order. -/
  tickets : List Text := []
  /-- The addresses that were asked for and whose fetches were dropped. -/
  dropped : List Text := []

namespace Session

/-- Asks for a page. -/
def request (net : Network) (s : Session) (url : Text) : Option Session :=
  (s.ledger.request net url).map fun x => { s with ledger := x.1, log := s.log ++ x.2 }

/-- Drops the fetches of the given pages, which are queued. -/
def drop (s : Session) (queued : List Text) : Session :=
  let gone := s.ledger.requested.filter fun url => queued.contains url
  { s with
    ledger := s.ledger.uncall gone
    log := s.log.filter fun e => !gone.any fun url => e.fetchUrl? == some url
    dropped := s.dropped ++ gone }

/-- Lets a silent page say its last word, if it has one. -/
def endSilence (net : Network) (s : Session) (url : Text) : Session :=
  match s.ledger.answer? url, net.lastWord url with
  | some .silence, some f =>
    { s with ledger := s.ledger.giveUp url f, log := s.log ++ [.failed url f.message] }
  | _, _ => s

/-- Calls off the waiting for a page while the fetches of the given pages are queued. -/
def callOff (net : Network) (s : Session) (url : Text) (queued : List Text) : Session :=
  let s := s.drop queued
  if s.dropped.contains url then s else s.endSilence net url

/-- Waits for a page that has been asked for. -/
def await (net : Network) (s : Session) (url : Text) (watch : Watch) :
    Session × Except FetchFault FetchReply :=
  match s.ledger.answer? url, watch with
  | none, _ => (s, .error .noTicket)
  | some _, .tooSoon queued => (s.callOff net url queued, .error .calledOff)
  | some answer, watch =>
    if s.dropped.contains url then (s, .error .dropped)
    else
      match answer with
      | .body text => (s, .ok (.result { url, body := some text }))
      | .failure f => (s, .ok (.result { url, fault := some f }))
      | .crash message => (s, .error (.crashed message))
      | .silence =>
        if watch == .calledOff then (s.callOff net url [], .error .calledOff)
        else (s, .error .stalled)

/-- The session with a ticket for the address. -/
def withTicket (s : Session) (url : Text) : Session :=
  if s.tickets.contains url then s else { s with tickets := s.tickets ++ [url] }

/-- Takes one step. A step that fails to ask for a page changes nothing. -/
def step (net : Network) (s : Session) : FetchStep → Session × Except FetchFault FetchReply
  | .submit url =>
    match s.request net url with
    | none => (s, .error .closed)
    | some s =>
      let s := s.withTicket url
      (s, .ok (.ticket (s.tickets.idxOf url)))
  | .join ticket watch =>
    match s.tickets[ticket]? with
    | none => (s, .error .noTicket)
    | some url => s.await net url watch
  | .fetch url watch =>
    match s.request net url with
    | none => (s, .error .closed)
    | some s => s.await net url watch
  | .cancel => (s, .ok .done)
  | .close => ({ s with ledger := s.ledger.close }, .ok .done)
  | .enter => (s, .ok .done)

/-- How often the network has been called for a page. -/
def calls (s : Session) (url : Text) : Nat := s.ledger.called.count url

/-- The events of the fetch of a page, in order. -/
def eventsOf (s : Session) (url : Text) : List Event :=
  s.log.filter fun e => e.fetchUrl? == some url

end Session

/-- The wording of a failed step. -/
def FetchFault.message : FetchFault → Text
  | .closed => "cannot schedule new futures after shutdown".toList
  | .crashed message => message
  | .calledOff => "Import resolution aborted while fetching".toList
  | .noTicket => "no such future".toList
  | .stalled => "still waiting".toList
  | .dropped => []

end StyleSplice
