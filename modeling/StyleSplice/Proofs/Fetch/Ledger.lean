import StyleSplice.Fetch.Ledger

/-!
# Honest ledgers

A ledger that only ever took its answers from a network gives the same answers as the network. For
such a ledger it makes no difference whether a page is looked up in it or asked for afresh.
-/

namespace StyleSplice

namespace Ledger

variable {net : Network} {l : Ledger} {url : Text}

/-- A ledger that is open and holds no answer but those of the network. -/
structure Honest (net : Network) (l : Ledger) : Prop where
  opened : l.closed = false
  answer : ∀ x ∈ l.entries, x.2 = net.answer x.1

theorem honest_empty (net : Network) : Honest net {} := ⟨rfl, by simp⟩

theorem isSome_answer?_iff : (l.answer? url).isSome ↔ url ∈ l.requested := by
  simp [answer?, field?, requested]

/-- A ledger that took its answers from the network answers like it. -/
theorem answer?_of_forall (h : ∀ x ∈ l.entries, x.2 = net.answer x.1) (hu : url ∈ l.requested) :
    l.answer? url = some (net.answer url) := by
  obtain ⟨a, ha⟩ := Option.isSome_iff_exists.1 (isSome_answer?_iff.2 hu)
  obtain ⟨x, hx, rfl⟩ := Option.map_eq_some_iff.1 ha
  have hk : x.1 = url := by simpa using List.find?_some hx
  rw [ha, h x (List.mem_of_find?_eq_some hx), hk]

/-- An honest ledger answers like the network once a page has been asked for. -/
theorem Honest.answer?_eq (h : l.Honest net) (hu : url ∈ l.requested) :
    l.answer? url = some (net.answer url) := answer?_of_forall h.answer hu

/-- What a request does to an honest ledger: it is taken, the page is known afterwards, and nothing
of it belongs to the walk over the tree. -/
theorem Honest.request (h : l.Honest net) (url : Text) :
    ∃ l' events, l.request net url = some (l', events) ∧ l'.Honest net ∧
      (∀ u, u ∈ l'.requested ↔ u ∈ l.requested ∨ u = url) ∧ ∀ e ∈ events, e.isStep = false := by
  unfold Ledger.request
  by_cases hk : (l.answer? url).isSome
  · refine ⟨l, [], by simp [hk], h, ?_, by simp⟩
    have := isSome_answer?_iff.1 hk
    grind
  · let next := { l with
      entries := l.entries ++ [(url, net.answer url)], called := l.called ++ [url] }
    refine ⟨next, (net.answer url).events url, by simp [hk, h.opened, next], ⟨h.opened, ?_⟩, ?_, ?_⟩
    · intro x hx
      rcases List.mem_append.1 hx with hx | hx
      · exact h.answer x hx
      · rw [List.mem_singleton.1 hx]
    · intro u
      simp [requested, next]
    · intro e he
      cases hn : net.answer url <;> rw [hn] at he <;> simp [Answer.events] at he <;>
        rcases he with rfl | rfl <;> rfl

end Ledger

end StyleSplice
