import Mathlib.Data.List.Induction
import Mathlib.Data.List.TakeWhile
import StyleSplice.Proofs.Fetch.Session

/-!
# Histories of a fetcher

Whatever users do with a fetcher whose network answers, each page is fetched once: the first request
for it makes one call and one series of events, and all requests for it get the same ticket and the
same result, a fault or a crash as well. Which pages these are can be read off the steps: the ones
that were asked for before the fetcher was closed.

Pages may be late. Who has called off the waiting for a page that is not there in time goes away
without a result. The other users do not notice, unless the fetch of their page was still queued by
then: it is dropped, and the network is never called for the page.
-/

namespace StyleSplice

/-- The addresses that are asked for before the fetcher is closed, each of them once, in the order of
the first requests. -/
def FetchStep.granted (steps : List FetchStep) : List Text :=
  ((steps.takeWhile (· != .close)).filterMap url?).eraseDups

namespace FetchStep

variable {steps : List FetchStep} {st : FetchStep} {url : Text}

/-- What is asked for after the fetcher was closed does not count. -/
theorem granted_append_of_closed (h : .close ∈ steps) (later : List FetchStep) :
    granted (steps ++ later) = granted steps := by
  have hfront : (steps ++ later).takeWhile (· != .close) = steps.takeWhile (· != .close) := by
    induction steps with
    | nil => cases h
    | cons x xs ih =>
      by_cases hx : x = .close
      · simp [hx]
      · have hxs : .close ∈ xs := by simpa [Ne.symm hx] using h
        simp [hx, ih hxs]
  rw [granted, granted, hfront]

theorem takeWhile_of_open (h : .close ∉ steps) : steps.takeWhile (· != .close) = steps :=
  List.takeWhile_eq_self_iff.2 fun x hx => by
    have hne : x ≠ .close := fun he => h (he ▸ hx)
    simpa using hne

theorem granted_append_of_open (h : .close ∉ steps) (later : List FetchStep) :
    granted (steps ++ later) = ((steps.filterMap url?) ++
      (later.takeWhile (· != .close)).filterMap url?).eraseDups := by
  rw [granted, List.takeWhile_append_of_pos, List.filterMap_append]
  intro x hx
  have hne : x ≠ .close := fun he => h (he ▸ hx)
  simpa using hne

/-- Later steps ask for addresses behind the earlier ones. -/
theorem granted_isPrefix (steps later : List FetchStep) :
    granted steps <+: granted (steps ++ later) := by
  by_cases h : .close ∈ steps
  · exact granted_append_of_closed h later ▸ List.prefix_rfl
  · rw [granted_append_of_open h, List.eraseDups_append, granted, takeWhile_of_open h]
    exact List.prefix_append _ _

theorem granted_of_url?_eq_none (h : st.url? = none) :
    granted (steps ++ [st]) = granted steps := by
  by_cases hc : .close ∈ steps
  · exact granted_append_of_closed hc [st]
  · have hlast : ([st].takeWhile (· != .close)).filterMap url? = [] := by
      by_cases hst : st = .close <;> simp [hst, h]
    rw [granted_append_of_open hc, hlast, List.append_nil, granted, takeWhile_of_open hc]

theorem granted_of_url?_eq_some (hc : .close ∉ steps) (h : st.url? = some url) :
    granted (steps ++ [st]) =
      if url ∈ granted steps then granted steps else granted steps ++ [url] := by
  have hlast : ([st].takeWhile (· != .close)).filterMap url? = [url] := by
    have hst : st ≠ .close := by
      rintro rfl
      cases h
    simp [hst, h]
  rw [granted_append_of_open hc, hlast, List.eraseDups_append, granted, takeWhile_of_open hc]
  by_cases hu : url ∈ steps.filterMap url?
  · rw [if_pos (List.mem_eraseDups.2 hu), List.removeAll, List.filter_cons_of_neg (by simpa using hu),
      List.filter_nil, List.eraseDups_nil, List.append_nil]
  · rw [if_neg fun h => hu (List.mem_eraseDups.1 h), List.removeAll,
      List.filter_cons_of_pos (by simpa using hu), List.filter_nil]
    rfl

/-- The address of a step counts if it was known before or the fetcher was open. -/
theorem mem_granted_iff {before later : List FetchStep} (h : st.url? = some url) :
    url ∈ granted (before ++ st :: later) ↔ url ∈ granted before ∨ .close ∉ before := by
  by_cases hc : .close ∈ before
  · rw [granted_append_of_closed hc]
    simp [hc]
  · have hmem : url ∈ granted (before ++ [st]) := by
      rw [granted_of_url?_eq_some hc h]
      split
      · assumption
      · simp
    have hlater := (granted_isPrefix (before ++ [st]) later).subset hmem
    rw [List.append_assoc] at hlater
    exact ⟨fun _ => .inr hc, fun _ => hlater⟩

end FetchStep

namespace Session

variable {net : Network} {s : Session} {url : Text} {steps : List FetchStep} {st : FetchStep}

/-- The session after some steps. -/
def after (net : Network) (steps : List FetchStep) : Session :=
  steps.foldl (fun s st => (s.step net st).1) {}

/-- The reply to the step at a position. -/
def reply? (net : Network) (steps : List FetchStep) (i : Nat) :
    Option (Except FetchFault FetchReply) :=
  steps[i]?.map fun st => ((after net (steps.take i)).step net st).2

theorem after_concat (net : Network) (steps : List FetchStep) (st : FetchStep) :
    after net (steps ++ [st]) = ((after net steps).step net st).1 := by
  rw [after, List.foldl_append]
  rfl

/-- A session in which the given steps were taken. -/
structure Follows (net : Network) (steps : List FetchStep) (s : Session) : Prop where
  sound : s.Sound net
  requested : s.ledger.requested = FetchStep.granted steps
  closed : s.ledger.closed = decide (.close ∈ steps)
  dropped : s.dropped ⊆ steps.flatMap FetchStep.queued

theorem Follows.grants_iff (h : s.Follows net steps) :
    s.Grants url ↔ url ∈ FetchStep.granted steps ∨ .close ∉ steps := by
  rw [Grants, h.requested, h.closed, decide_eq_false_iff_not]

theorem Follows.step (h : s.Follows net steps) (hnet : net.Responds) (st : FetchStep) :
    (s.step net st).1.Follows net (steps ++ [st]) := by
  have hm := moves_step h.sound hnet st
  refine ⟨hm.sound, ?_, ?_, ?_⟩
  · rw [hm.requested]
    cases hu : st.url? with
    | none =>
      rw [FetchStep.granted_of_url?_eq_none hu]
      exact h.requested
    | some url =>
      dsimp only
      by_cases hc : .close ∈ steps
      · rw [FetchStep.granted_append_of_closed hc, requested_ready, h.requested]
        split
        · rename_i hg
          rw [if_pos ((h.grants_iff.1 hg).resolve_right (by simpa using hc))]
        · rfl
      · rw [if_pos (h.grants_iff.2 (.inr hc)), requested_ready, h.requested,
          FetchStep.granted_of_url?_eq_some hc hu]
  · rw [hm.closed, h.closed]
    cases st <;> simp
  · rw [List.flatMap_append, List.flatMap_singleton]
    refine List.Subset.trans hm.dropped (List.append_subset.2 ⟨?_, List.subset_append_right _ _⟩)
    exact List.subset_append_of_subset_left _ h.dropped

theorem follows_after (hnet : net.Responds) (steps : List FetchStep) :
    (after net steps).Follows net steps := by
  induction steps using List.reverseRecOn with
  | nil =>
    have hempty : Session.Sound net {} := ⟨by simp, fun _ => rfl, fun _ => rfl, List.nodup_nil,
      List.nil_subset _, List.nil_subset _⟩
    exact ⟨hempty, rfl, rfl, List.nil_subset _⟩
  | append_singleton steps st ih =>
    rw [after_concat]
    exact ih.step hnet st

theorem tickets_isPrefix_after (hnet : net.Responds) (before later : List FetchStep) :
    (after net before).tickets <+: (after net (before ++ later)).tickets := by
  induction later using List.reverseRecOn with
  | nil => exact (List.append_nil before).symm ▸ List.prefix_rfl
  | append_singleton later st ih =>
    rw [← List.append_assoc, after_concat]
    exact ih.trans (moves_step (follows_after hnet _).sound hnet st).tickets

theorem split_at {i : Nat} (h : steps[i]? = some st) :
    steps = steps.take i ++ st :: steps.drop (i + 1) := by
  obtain ⟨hi, rfl⟩ := List.getElem?_eq_some_iff.1 h
  rw [List.getElem_cons_drop, List.take_append_drop]

theorem reply?_eq (net : Network) {i : Nat} (h : steps[i]? = some st) :
    reply? net steps i = some ((after net (steps.take i)).step net st).2 := by
  rw [reply?, h, Option.map_some]

theorem after_take_succ (net : Network) {i : Nat} (h : steps[i]? = some st) :
    after net (steps.take (i + 1)) = ((after net (steps.take i)).step net st).1 := by
  rw [List.take_add_one, h, Option.toList_some, after_concat]

/-- Whether a step gets its page does not depend on what comes later. -/
theorem grants_take_iff (hnet : net.Responds) {i : Nat} (h : steps[i]? = some st)
    (hu : st.url? = some url) :
    (after net (steps.take i)).Grants url ↔ url ∈ FetchStep.granted steps := by
  rw [(follows_after hnet (steps.take i)).grants_iff, ← FetchStep.mem_granted_iff hu, ← split_at h]

/-- The ticket for a page stays what it is. -/
theorem idxOf_tickets (hnet : net.Responds) {before : List FetchStep}
    (hu : url ∈ (after net before).tickets) (later : List FetchStep) :
    (after net (before ++ later)).tickets.idxOf url = (after net before).tickets.idxOf url := by
  obtain ⟨more, hmore⟩ := tickets_isPrefix_after hnet before later
  rw [← hmore, List.idxOf_append, if_pos hu]

/-- The reply to a request for a ticket. -/
theorem reply?_submit (hnet : net.Responds) {i : Nat} (h : steps[i]? = some (.submit url)) :
    reply? net steps i = some (if url ∈ FetchStep.granted steps
      then .ok (.ticket ((after net steps).tickets.idxOf url)) else .error .closed) ∧
    (url ∈ FetchStep.granted steps → url ∈ (after net (steps.take (i + 1))).tickets) := by
  have hg := grants_take_iff hnet h rfl
  have hstep := step_submit net (after net (steps.take i)) url
  have hnext := after_take_succ net h
  rw [reply?_eq net h]
  by_cases hu : url ∈ FetchStep.granted steps
  · rw [if_pos (hg.2 hu)] at hstep
    rw [hstep] at hnext ⊢
    have hmem : url ∈ (after net (steps.take (i + 1))).tickets :=
      hnext ▸ mem_tickets_withTicket _ url
    have hlast := idxOf_tickets hnet hmem (steps.drop (i + 1))
    rw [List.take_append_drop] at hlast
    rw [if_pos hu, hlast, hnext]
    exact ⟨rfl, fun _ => hnext ▸ hmem⟩
  · rw [if_neg fun h => hu (hg.1 h)] at hstep
    rw [hstep, if_neg hu]
    exact ⟨rfl, fun h => absurd h hu⟩

/-- What becomes of the pages that the steps of a history ask for. Pages may be late, and a fetch may
be dropped from the queue before it begins. -/
structure FetchesOnce (net : Network) (steps : List FetchStep) : Prop where
  /-- The requested pages are those asked for before the fetcher was closed, in the order of the
  first requests. -/
  requested : (after net steps).ledger.requested = FetchStep.granted steps
  /-- No fetch is dropped unless it is queued when the waiting for a late page is called off. -/
  dropped : ∀ url ∈ (after net steps).dropped, ∃ st ∈ steps, url ∈ st.queued
  /-- Each requested page whose fetch was not dropped was called for once, and no other page. -/
  calls : ∀ url, (after net steps).calls url =
    if url ∈ FetchStep.granted steps ∧ url ∉ (after net steps).dropped then 1 else 0
  /-- The events of a page are its start and what came of it; a crash is not told. -/
  events : ∀ url, (after net steps).eventsOf url =
    if url ∈ FetchStep.granted steps ∧ url ∉ (after net steps).dropped then
      match net.answer url with
      | .body text => [.started url, .completed url text.length]
      | .failure f => [.started url, .failed url f.message]
      | _ => [.started url]
    else []
  /-- Who submits a requested page gets a ticket for it. -/
  submit : ∀ i url, steps[i]? = some (.submit url) →
    ((∃ k, reply? net steps i = some (.ok (.ticket k))) ↔ url ∈ FetchStep.granted steps)
  /-- Two tickets are the same if and only if they are for the same page. -/
  ticket : ∀ i j url url' k l, steps[i]? = some (.submit url) → steps[j]? = some (.submit url') →
    reply? net steps i = some (.ok (.ticket k)) → reply? net steps j = some (.ok (.ticket l)) →
    (k = l ↔ url = url')
  /-- Who fetches a requested page gets its result, whatever was done with it before, if its fetch was
  not dropped. He gets none only if the page is late and he has called off the waiting. -/
  fetch : ∀ i url watch, steps[i]? = some (.fetch url watch) → url ∈ FetchStep.granted steps →
    url ∉ (after net (steps.take i)).dropped → reply? net steps i =
      some (if watch.inTime then (net.answer url).reply url else .error .calledOff)
  /-- Who joins a ticket gets the result of its page, under the same conditions. -/
  join : ∀ i j url k watch, i < j → steps[i]? = some (.submit url) →
    reply? net steps i = some (.ok (.ticket k)) → steps[j]? = some (.join k watch) →
    url ∉ (after net (steps.take j)).dropped → reply? net steps j =
      some (if watch.inTime then (net.answer url).reply url else .error .calledOff)
  /-- A page that is not known when the fetcher is closed cannot be asked for any more, and to try it
  changes nothing. -/
  refused : ∀ i st url, steps[i]? = some st → st.url? = some url → .close ∈ steps.take i →
    url ∉ (after net (steps.take i)).ledger.requested →
    reply? net steps i = some (.error .closed) ∧
      after net (steps.take (i + 1)) = after net (steps.take i)

/-- **Histories.** If every page of the network answers, then each page that the users of a fetcher
ask for before they close it is fetched once, and all who ask for it get the same, except for who
calls off the waiting for a late page. Only a fetch that is queued by then is not made at all. -/
theorem fetches_each_page_once (hnet : net.Responds) (steps : List FetchStep) :
    FetchesOnce net steps := by
  have hlast := follows_after hnet steps
  have hfetches (url : Text) : (after net steps).Fetches url ↔
      url ∈ FetchStep.granted steps ∧ url ∉ (after net steps).dropped := by
    rw [Fetches, hlast.requested]
  have hticket {i : Nat} {url : Text} {k : Nat} (h : steps[i]? = some (.submit url))
      (hk : reply? net steps i = some (.ok (.ticket k))) :
      url ∈ FetchStep.granted steps ∧ k = (after net steps).tickets.idxOf url ∧
        url ∈ (after net (steps.take (i + 1))).tickets := by
    obtain ⟨hreply, hmem⟩ := reply?_submit hnet h
    by_cases hu : url ∈ FetchStep.granted steps
    · rw [hk, if_pos hu] at hreply
      exact ⟨hu, by simpa using hreply, hmem hu⟩
    · rw [hk, if_neg hu] at hreply
      cases hreply
  constructor
  case requested => exact hlast.requested
  case calls =>
    intro url
    rw [hlast.sound.called, if_congr (hfetches url) rfl rfl]
  case dropped =>
    intro url hu
    exact List.mem_flatMap.1 (hlast.dropped hu)
  case events =>
    intro url
    rw [hlast.sound.told, if_congr (hfetches url) rfl rfl]
    cases net.answer url <;> rfl
  case submit =>
    intro i url h
    constructor
    · rintro ⟨k, hk⟩
      exact (hticket h hk).1
    · intro hu
      rw [(reply?_submit hnet h).1, if_pos hu]
      exact ⟨_, rfl⟩
  case ticket =>
    intro i j url url' k l hi hj hk hl
    obtain ⟨-, rfl, hmem⟩ := hticket hi hk
    obtain ⟨-, rfl, -⟩ := hticket hj hl
    have hin := (tickets_isPrefix_after hnet (steps.take (i + 1)) (steps.drop (i + 1))).subset hmem
    rw [List.take_append_drop] at hin
    exact List.idxOf_inj hin
  case fetch =>
    intro i url watch h hu hkept
    rw [reply?_eq net h, step_fetch (follows_after hnet _).sound hnet,
      if_pos ((grants_take_iff hnet h rfl).2 hu), handed_of_not_dropped hkept]
  case join =>
    intro i j url k watch hij hi hk hj hkept
    obtain ⟨-, rfl, hmem⟩ := hticket hi hk
    have htake : (steps.take j).take (i + 1) = steps.take (i + 1) := by
      rw [List.take_take, Nat.min_eq_left hij]
    -- The ticket is known from its request on.
    have hthen := idxOf_tickets hnet (htake ▸ hmem) ((steps.take j).drop (i + 1))
    have hnow := idxOf_tickets hnet hmem (steps.drop (i + 1))
    rw [List.take_append_drop] at hthen hnow
    have hin := (tickets_isPrefix_after hnet ((steps.take j).take (i + 1))
      ((steps.take j).drop (i + 1))).subset (htake ▸ hmem)
    rw [List.take_append_drop] at hin
    rw [reply?_eq net hj, step_join (follows_after hnet _).sound hnet, hnow, ← htake, ← hthen,
      List.getElem?_idxOf hin, ← handed_of_not_dropped hkept]
  case refused =>
    intro i st url h hu hclosed hnew
    have hf := follows_after hnet (steps.take i)
    have hno : ¬ (after net (steps.take i)).Grants url := by
      rw [Grants, hf.closed]
      simp [hnew, hclosed]
    rw [reply?_eq net h, after_take_succ net h, step_of_not_grants hf.sound hnet hu hno]
    exact ⟨rfl, rfl⟩

/-- Users of three pages. One does not wait until his page is there, and one asks again for a page
after the fetcher was closed. -/
theorem fetches_each_page_once_of_three :
    let net := Network.ofPages [] [("https://a/".toList, .body "b { }".toList),
      ("https://b/".toList, .status 500), ("https://c/".toList, .crash "broken".toList)]
    net.Responds ∧ FetchesOnce net
      [.submit "https://a/".toList, .submit "https://b/".toList, .fetch "https://c/".toList .nobody,
        .submit "https://a/".toList, .join 0 (.tooSoon []), .close, .submit "https://d/".toList,
        .join 0 .waiting, .fetch "https://b/".toList .calledOff] :=
  have hnet := Network.responds_ofPages (by simp)
  ⟨hnet, fetches_each_page_once hnet _⟩

/-- A page that is queued while the waiting for another one is called off is not fetched any more. -/
example :
    let net := Network.ofPages [] [("https://a/".toList, .body []), ("https://b/".toList, .body [])]
    let steps : List FetchStep := [.submit "https://a/".toList, .submit "https://b/".toList,
      .join 0 (.tooSoon ["https://b/".toList]), .join 1 .nobody, .join 0 .nobody]
    (after net steps).calls "https://a/".toList = 1 ∧
      (after net steps).calls "https://b/".toList = 0 ∧
      reply? net steps 2 = some (.error .calledOff) ∧
      reply? net steps 3 = some (.error .dropped) ∧
      reply? net steps 4 = some (.ok (.result { url := "https://a/".toList, body := some [] })) := by
  decide

end Session

end StyleSplice
