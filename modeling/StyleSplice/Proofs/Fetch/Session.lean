import Mathlib.Data.List.Basic
import Mathlib.Data.List.Nodup
import StyleSplice.Fetch.Session
import StyleSplice.Proofs.Fetch.Ledger

/-!
# Sound sessions

In a sound session every page that users have asked for was fetched once, unless its fetch was dropped
from the queue. Each step keeps it so, if the pages of the network answer. What a step does besides is
to make a page known, to give a ticket for it, to drop fetches or to close the fetcher.
-/

namespace StyleSplice

/-- What waiting for a page comes to, by the answer of the network. -/
def Answer.reply (url : Text) : Answer → Except FetchFault FetchReply
  | .body text => .ok (.result { url, body := some text })
  | .failure f => .ok (.result { url, fault := some f })
  | .crash message => .error (.crashed message)
  | .silence => .error .stalled

/-- The address that a step asks for. -/
def FetchStep.url? : FetchStep → Option Text
  | .submit url => some url
  | .fetch url _ => some url
  | _ => none

/-- Whether the page is there in time, if it does not stay silent. -/
def Watch.inTime : Watch → Bool
  | .tooSoon _ => false
  | _ => true

/-- The pages whose fetches are queued when nobody waits for a late page any more. -/
def Watch.queued : Watch → List Text
  | .tooSoon queued => queued
  | _ => []

/-- The pages whose fetches are queued when a step gives up on a late page. -/
def FetchStep.queued : FetchStep → List Text
  | .join _ watch | .fetch _ watch => watch.queued
  | _ => []

namespace Answer

variable {url : Text}

/-- The events of a fetch are about its page. -/
theorem fetchUrl?_of_mem_events {a : Answer} {e : Event} (h : e ∈ a.events url) :
    e.fetchUrl? = some url := by
  cases a with
  | body text | failure f =>
    simp only [events, List.mem_cons, List.not_mem_nil, or_false] at h
    rcases h with rfl | rfl <;> rfl
  | crash message | silence =>
    rw [List.mem_singleton.1 h]
    rfl

end Answer

namespace Session

variable {net : Network} {s : Session} {url : Text} {st : FetchStep}

/-- Whether a page can be asked for: it is known, or the fetcher is open. -/
def Grants (s : Session) (url : Text) : Prop :=
  url ∈ s.ledger.requested ∨ s.ledger.closed = false

instance (s : Session) (url : Text) : Decidable (s.Grants url) :=
  inferInstanceAs (Decidable (_ ∨ _))

/-- The session in which a page is known. -/
def ready (net : Network) (s : Session) (url : Text) : Session :=
  if url ∈ s.ledger.requested then s
  else
    { s with
      ledger := { s.ledger with
        entries := s.ledger.entries ++ [(url, net.answer url)]
        called := s.ledger.called ++ [url] }
      log := s.log ++ (net.answer url).events url }

/-- What a user gets who waits for a known page. -/
def handed (net : Network) (s : Session) (url : Text) (watch : Watch) :
    Except FetchFault FetchReply :=
  if watch.inTime then if url ∈ s.dropped then .error .dropped else (net.answer url).reply url
  else .error .calledOff

/-- A page whose fetch was not dropped is handed out to everybody who does not come too soon. -/
theorem handed_of_not_dropped (h : url ∉ s.dropped) (watch : Watch) : s.handed net url watch =
    if watch.inTime then (net.answer url).reply url else .error .calledOff := by
  rw [handed, if_neg h]

/-- Whether a page has been asked for and its fetch was not dropped. -/
def Fetches (s : Session) (url : Text) : Prop := url ∈ s.ledger.requested ∧ url ∉ s.dropped

instance (s : Session) (url : Text) : Decidable (s.Fetches url) :=
  inferInstanceAs (Decidable (_ ∧ _))

/-- Every page that has been asked for was fetched once, and its events stand in the log, unless its
fetch was dropped. Tickets belong to such pages, each to another one. -/
structure Sound (net : Network) (s : Session) : Prop where
  answer : ∀ x ∈ s.ledger.entries, x.2 = net.answer x.1
  called : ∀ url, s.calls url = if s.Fetches url then 1 else 0
  told : ∀ url, s.eventsOf url = if s.Fetches url then (net.answer url).events url else []
  tickets : s.tickets.Nodup
  known : s.tickets ⊆ s.ledger.requested
  dropped : s.dropped ⊆ s.ledger.requested

theorem request_eq (net : Network) (s : Session) (url : Text) :
    s.request net url = if s.Grants url then some (s.ready net url) else none := by
  unfold request Ledger.request Grants ready
  simp only [Ledger.isSome_answer?_iff]
  by_cases hu : url ∈ s.ledger.requested
  · simp [hu]
  · cases hc : s.ledger.closed <;> simp [hu]

@[simp] theorem closed_ready : (s.ready net url).ledger.closed = s.ledger.closed := by
  unfold ready
  split <;> rfl

@[simp] theorem dropped_ready : (s.ready net url).dropped = s.dropped := by
  unfold ready
  split <;> rfl

@[simp] theorem tickets_ready : (s.ready net url).tickets = s.tickets := by
  unfold ready
  split <;> rfl

theorem requested_ready : (s.ready net url).ledger.requested =
    if url ∈ s.ledger.requested then s.ledger.requested else s.ledger.requested ++ [url] := by
  unfold ready
  split
  · rfl
  · simp [Ledger.requested]

theorem mem_requested_ready : url ∈ (s.ready net url).ledger.requested := by
  rw [requested_ready]
  split
  · assumption
  · simp

theorem requested_subset_ready : s.ledger.requested ⊆ (s.ready net url).ledger.requested := by
  rw [requested_ready]
  split
  · exact List.Subset.refl _
  · exact List.subset_append_left _ _

/-- The network is called for a page that becomes known. -/
theorem calls_ready (hu : url ∉ s.ledger.requested) (u : Text) :
    (s.ready net url).calls u = s.calls u + if u = url then 1 else 0 := by
  rw [ready, if_neg hu, calls, calls, List.count_append, List.count_singleton]
  by_cases he : u = url
  · simp [he]
  · simp [he, Ne.symm he]

/-- The events of a page that becomes known are added to the log. -/
theorem eventsOf_ready (hu : url ∉ s.ledger.requested) (u : Text) :
    (s.ready net url).eventsOf u =
      s.eventsOf u ++ if u = url then (net.answer url).events url else [] := by
  rw [ready, if_neg hu, eventsOf, eventsOf, List.filter_append]
  congr 1
  split
  · rename_i he
    refine List.filter_eq_self.2 fun e hmem => ?_
    simp [Answer.fetchUrl?_of_mem_events hmem, he]
  · rename_i he
    refine List.filter_eq_nil_iff.2 fun e hmem => ?_
    simp [Answer.fetchUrl?_of_mem_events hmem, Ne.symm he]

@[simp] theorem closed_drop (s : Session) (queued : List Text) :
    (s.drop queued).ledger.closed = s.ledger.closed := rfl

@[simp] theorem requested_drop (s : Session) (queued : List Text) :
    (s.drop queued).ledger.requested = s.ledger.requested := rfl

@[simp] theorem tickets_drop (s : Session) (queued : List Text) :
    (s.drop queued).tickets = s.tickets := rfl

@[simp] theorem drop_nil (s : Session) : s.drop [] = s := by simp [drop, Ledger.uncall]

/-- Dropped fetches leave no events behind. -/
theorem eventsOf_drop (s : Session) (queued : List Text) (url : Text) :
    (s.drop queued).eventsOf url =
      if url ∈ s.ledger.requested ∧ url ∈ queued then [] else s.eventsOf url := by
  rw [eventsOf, drop, List.filter_filter]
  split
  · rename_i h
    refine List.filter_eq_nil_iff.2 fun e _ => ?_
    simp only [Bool.and_eq_true, beq_iff_eq, not_and]
    intro he
    simp [he, h]
  · rename_i h
    refine List.filter_congr fun e _ => ?_
    by_cases he : e.fetchUrl? = some url
    · have hkept (x : Text) (hx : x ∈ s.ledger.requested) (hq : x ∈ queued) : url ≠ x := by
        rintro rfl
        exact h ⟨hx, hq⟩
      simpa [he] using hkept
    · simp [he]

/-- The network was not called for the pages of dropped fetches. -/
theorem calls_drop (s : Session) (queued : List Text) (url : Text) :
    (s.drop queued).calls url =
      if url ∈ s.ledger.requested ∧ url ∈ queued then 0 else s.calls url := by
  rw [calls, drop, Ledger.uncall]
  split
  · rename_i h
    refine List.count_eq_zero.2 fun hmem => ?_
    simp [h] at hmem
  · rename_i h
    exact List.count_filter (by simpa using not_and_or.1 h)

theorem fetches_drop {queued : List Text} {u : Text} :
    (s.drop queued).Fetches u ↔ s.Fetches u ∧ ¬ (u ∈ s.ledger.requested ∧ u ∈ queued) := by
  simp only [Fetches, drop, Ledger.uncall, List.mem_append, List.mem_filter, List.contains_iff_mem]
  tauto

namespace Sound

theorem fetches_ready (hs : s.Sound net) (hu : url ∉ s.ledger.requested) {u : Text} :
    (s.ready net url).Fetches u ↔ s.Fetches u ∨ u = url := by
  have hnew : url ∉ s.dropped := fun h => hu (hs.dropped h)
  rw [Fetches, Fetches, requested_ready, if_neg hu, dropped_ready, List.mem_append,
    List.mem_singleton]
  by_cases he : u = url
  · simp [he, hnew]
  · simp [he]

/-- A page that becomes known is fetched, once. -/
theorem ready (hs : s.Sound net) (url : Text) : (s.ready net url).Sound net := by
  by_cases hu : url ∈ s.ledger.requested
  · rwa [Session.ready, if_pos hu]
  have hno : ¬ s.Fetches url := fun h => hu h.1
  refine ⟨?_, fun u => ?_, fun u => ?_, ?_, ?_, ?_⟩
  · rw [Session.ready, if_neg hu]
    intro x hx
    rcases List.mem_append.1 hx with hx | hx
    · exact hs.answer x hx
    · rw [List.mem_singleton.1 hx]
  · rw [calls_ready hu, hs.called, if_congr (hs.fetches_ready hu) rfl rfl]
    by_cases he : u = url
    · simp [he, hno]
    · simp [he]
  · rw [eventsOf_ready hu, hs.told, if_congr (hs.fetches_ready hu) rfl rfl]
    by_cases he : u = url
    · simp [he, hno]
    · simp [he]
  · rw [tickets_ready]
    exact hs.tickets
  · rw [tickets_ready]
    exact List.Subset.trans hs.known requested_subset_ready
  · rw [dropped_ready]
    exact List.Subset.trans hs.dropped requested_subset_ready

/-- A dropped fetch was none. -/
theorem drop (hs : s.Sound net) (queued : List Text) : (s.drop queued).Sound net := by
  refine ⟨hs.answer, fun u => ?_, fun u => ?_, hs.tickets, hs.known, ?_⟩
  · rw [calls_drop, hs.called, if_congr fetches_drop rfl rfl]
    by_cases hq : u ∈ s.ledger.requested ∧ u ∈ queued <;> simp [hq]
  · rw [eventsOf_drop, hs.told, if_congr fetches_drop rfl rfl]
    by_cases hq : u ∈ s.ledger.requested ∧ u ∈ queued <;> simp [hq]
  · exact List.append_subset.2 ⟨hs.dropped, List.filter_subset_self _⟩

theorem withTicket (hs : s.Sound net) (hu : url ∈ s.ledger.requested) :
    (s.withTicket url).Sound net := by
  unfold Session.withTicket
  split
  · exact hs
  · rename_i hnew
    have hnew : url ∉ s.tickets := by simpa using hnew
    refine ⟨hs.answer, hs.called, hs.told, List.nodup_append.2 ⟨hs.tickets, by simp, by grind⟩, ?_,
      hs.dropped⟩
    exact List.append_subset.2 ⟨hs.known, List.cons_subset.2 ⟨hu, List.nil_subset _⟩⟩

/-- A page that answers says no last word. -/
theorem callOff (hs : s.Sound net) (hnet : net.Responds) (hu : url ∈ s.ledger.requested)
    (queued : List Text) : s.callOff net url queued = s.drop queued := by
  have ha : (s.drop queued).ledger.answer? url = some (net.answer url) :=
    Ledger.answer?_of_forall hs.answer hu
  unfold Session.callOff endSilence
  dsimp only
  split
  · rfl
  · rw [ha]
    split
    · rename_i hsilent _
      exact absurd (Option.some.inj hsilent) (hnet url)
    · rfl

/-- To wait for a known page drops the queued fetches, and who comes too soon goes away empty. -/
theorem await (hs : s.Sound net) (hnet : net.Responds) (hu : url ∈ s.ledger.requested)
    (watch : Watch) : s.await net url watch = (s.drop watch.queued, s.handed net url watch) := by
  have ha := Ledger.answer?_of_forall hs.answer hu
  cases watch with
  | tooSoon queued =>
    simp only [Session.await, ha, hs.callOff hnet hu]
    rfl
  | nobody | waiting | calledOff =>
    simp only [Session.await, ha, handed, Watch.inTime, Watch.queued, drop_nil, if_true]
    by_cases hd : url ∈ s.dropped
    · simp [hd]
    · simp only [hd, List.contains_iff_mem, if_false]
      cases hanswer : net.answer url with
      | silence => exact absurd hanswer (hnet url)
      | _ => rfl

end Sound

theorem mem_tickets_withTicket (s : Session) (url : Text) : url ∈ (s.withTicket url).tickets := by
  unfold withTicket
  split
  · rename_i h
    simpa using h
  · simp

theorem tickets_isPrefix_withTicket (s : Session) (url : Text) :
    s.tickets <+: (s.withTicket url).tickets := by
  unfold withTicket
  split
  · exact List.prefix_rfl
  · exact List.prefix_append _ _

@[simp] theorem ledger_withTicket (s : Session) (url : Text) :
    (s.withTicket url).ledger = s.ledger := by
  unfold withTicket
  split <;> rfl

@[simp] theorem dropped_withTicket (s : Session) (url : Text) :
    (s.withTicket url).dropped = s.dropped := by
  unfold withTicket
  split <;> rfl

theorem step_submit (net : Network) (s : Session) (url : Text) :
    s.step net (.submit url) =
      if s.Grants url then
        let s' := (s.ready net url).withTicket url
        (s', .ok (.ticket (s'.tickets.idxOf url)))
      else (s, .error .closed) := by
  rw [step, request_eq]
  by_cases h : s.Grants url
  · rw [if_pos h, if_pos h]
  · rw [if_neg h, if_neg h]

theorem step_fetch (hs : s.Sound net) (hnet : net.Responds) (url : Text) (watch : Watch) :
    s.step net (.fetch url watch) =
      if s.Grants url then ((s.ready net url).drop watch.queued, s.handed net url watch)
      else (s, .error .closed) := by
  have hsame : (s.ready net url).handed net url watch = s.handed net url watch := by
    rw [handed, handed, dropped_ready]
  rw [step, request_eq]
  by_cases h : s.Grants url
  · rw [if_pos h, if_pos h, ← hsame]
    exact (hs.ready url).await hnet mem_requested_ready watch
  · rw [if_neg h, if_neg h]

theorem step_join (hs : s.Sound net) (hnet : net.Responds) (ticket : Nat) (watch : Watch) :
    s.step net (.join ticket watch) = match s.tickets[ticket]? with
      | none => (s, .error .noTicket)
      | some url => (s.drop watch.queued, s.handed net url watch) := by
  rw [step]
  cases ht : s.tickets[ticket]? with
  | none => rfl
  | some url => exact hs.await hnet (hs.known (List.mem_of_getElem? ht)) watch

/-- What one step does to a session: it makes the page known that it asks for, if that is possible,
and it may give a ticket for it, drop queued fetches or close the fetcher. -/
structure Moves (net : Network) (s : Session) (st : FetchStep) (s' : Session) : Prop where
  sound : s'.Sound net
  requested : s'.ledger.requested =
    match st.url? with
    | some url => if s.Grants url then (s.ready net url).ledger.requested else s.ledger.requested
    | none => s.ledger.requested
  closed : s'.ledger.closed = (s.ledger.closed || st == .close)
  tickets : s.tickets <+: s'.tickets
  dropped : s'.dropped ⊆ s.dropped ++ st.queued

theorem dropped_drop_subset (s : Session) (queued : List Text) :
    (s.drop queued).dropped ⊆ s.dropped ++ queued := by
  intro u hu
  simp only [drop, List.mem_append, List.mem_filter, List.contains_iff_mem] at hu
  exact List.mem_append.2 (hu.imp id And.right)

/-- A step that leaves everything as it is. -/
theorem Sound.moves_self (hs : s.Sound net) (hc : st ≠ .close)
    (hno : ∀ url, st.url? = some url → ¬ s.Grants url) : s.Moves net st s where
  sound := hs
  requested := by
    cases hu : st.url? with
    | none => rfl
    | some url => exact (if_neg (hno url hu)).symm
  closed := by simp [hc]
  tickets := List.prefix_rfl
  dropped := List.subset_append_left _ _

theorem moves_step (hs : s.Sound net) (hnet : net.Responds) (st : FetchStep) :
    s.Moves net st (s.step net st).1 := by
  cases st with
  | submit url =>
    rw [step_submit]
    by_cases h : s.Grants url
    · rw [if_pos h]
      refine ⟨(hs.ready url).withTicket mem_requested_ready, ?_, by simp, ?_, by simp⟩
      · simp [FetchStep.url?, h]
      · have hp := tickets_isPrefix_withTicket (s.ready net url) url
        rwa [tickets_ready] at hp
    · rw [if_neg h]
      refine hs.moves_self (by simp) ?_
      rintro u ⟨⟩
      exact h
  | fetch url watch =>
    rw [step_fetch hs hnet]
    by_cases h : s.Grants url
    · rw [if_pos h]
      refine ⟨(hs.ready url).drop watch.queued, ?_, by simp, by simp, ?_⟩
      · simp [FetchStep.url?, h]
      · have hsub := dropped_drop_subset (s.ready net url) watch.queued
        rwa [dropped_ready] at hsub
    · rw [if_neg h]
      refine hs.moves_self (by simp) ?_
      rintro u ⟨⟩
      exact h
  | join ticket watch =>
    rw [step_join hs hnet]
    cases s.tickets[ticket]? with
    | none => exact hs.moves_self (by simp) (by rintro u ⟨⟩)
    | some url =>
      exact ⟨hs.drop watch.queued, rfl, by simp, List.prefix_rfl, dropped_drop_subset s _⟩
  | close =>
    refine ⟨⟨hs.answer, hs.called, hs.told, hs.tickets, hs.known, hs.dropped⟩, rfl, ?_,
      List.prefix_rfl, List.subset_append_left _ _⟩
    simp [step, Ledger.close]
  | cancel => exact hs.moves_self (by simp) (by rintro u ⟨⟩)
  | enter => exact hs.moves_self (by simp) (by rintro u ⟨⟩)

/-- The result of a step that asks for a page in a closed fetcher that does not know it. -/
theorem step_of_not_grants (hs : s.Sound net) (hnet : net.Responds) (hu : st.url? = some url)
    (h : ¬ s.Grants url) : s.step net st = (s, .error .closed) := by
  cases st with
  | submit u =>
    cases hu
    rw [step_submit, if_neg h]
  | fetch u watch =>
    cases hu
    rw [step_fetch hs hnet, if_neg h]
  | join | close | cancel | enter => cases hu

end Session

end StyleSplice
