import Mathlib.Data.List.Perm.Subperm
import Mathlib.Logic.Relation
import StyleSplice.Proofs.Resolve.Reach

/-!
# What a run does

Everything that a run does to its progress is a list of deeds: it says something about an import,
asks for a page, or tells that an import was replaced. Each deed belongs to a context that the walk
has entered. This holds however the run ends, and a run that nobody aborts ends without a result for
one of a few reasons only. Whatever every deed keeps, a run keeps.
-/

namespace StyleSplice

/-- On its way over `ns` in the context `c`, a walk comes to the nodes `ns'` in the context `c'`. -/
inductive Enters (s : Setup) : Context → List Node → Context → List Node → Prop
  | refl (c : Context) (ns : List Node) : Enters s c ns c ns
  | inside {c c' : Context} {ns children ns' : List Node} {url : Text} (leads : Leads s c ns url)
    (content : s.content url = .ok (.ok children)) (enters : c.canDescend = true)
    (inner : Enters s (c.descend url) children c' ns') : Enters s c ns c' ns'

/-- One thing that a walk over `ns` in the context `c` does. -/
inductive Deed (s : Setup) (c : Context) (ns : List Node) (p : Progress) : Progress → Prop
  /-- Say why an import stays, before any page is waited for. -/
  | remain {n : Node} {plan : Plan} (mem : n ∈ Node.walkAll ns)
    (plan_eq : Plan.ofNode s c n = .ok plan) (idle : plan.order? = none) :
    Deed s c ns p (p.noting (plan.early c))
  | request {n : Node} {d : Import} {url : Text} {l : Ledger} {events : List Event}
    (mem : n ∈ Node.walkAll ns) (plan_eq : Plan.ofNode s c n = .ok (.fetch d url))
    (granted : p.ledger.request s.network url = some (l, events)) :
    Deed s c ns p { p with ledger := l, trace := p.trace ++ events }
  /-- Leave an import whose page cannot be had or read. -/
  | leave {n : Node} {d : Import} {url : Text} {f : Fault} (mem : n ∈ Node.walkAll ns)
    (plan_eq : Plan.ofNode s c n = .ok (.fetch d url)) (content : s.content url = .ok (.error f)) :
    Deed s c ns p (p.noting (.skipped [] c url .failed (some f)))
  /-- Say that an import was replaced. -/
  | replace {n : Node} {d : Import} {url : Text} {children : List Node}
    (mem : n ∈ Node.walkAll ns) (plan_eq : Plan.ofNode s c n = .ok (.fetch d url))
    (content : s.content url = .ok (.ok children)) :
    Deed s c ns p (p.noting { events := [.resolved url c.depth d.media] })
  /-- Remark on an import in a page that is not walked over. -/
  | remark {n : Node} {d : Import} {url : Text} {children : List Node} {target : Target}
    (leads : Leads s c ns url) (content : s.content url = .ok (.ok children))
    (stays : c.canDescend = false)
    (found : (d, n) ∈ Import.findAll children (c.descend url).origin)
    (meant : Target.classify d.target (c.descend url).origin s.options.schemeText = .ok target) :
    Deed s c ns p (p.noting (OnePass.remark s (c.descend url) target))

/-- One deed in a context that the walk enters. -/
def Act (s : Setup) (c : Context) (ns : List Node) (p q : Progress) : Prop :=
  ∃ c' ns', Enters s c ns c' ns' ∧ Deed s c' ns' p q

/-- Any number of deeds, one after the other. -/
abbrev Acts (s : Setup) (c : Context) (ns : List Node) : Progress → Progress → Prop :=
  Relation.ReflTransGen (Act s c ns)

/-- Why a run over some nodes that is not aborted ends without a result. -/
inductive Breaks (s : Setup) (c : Context) (ns : List Node) : Halt → Prop
  /-- A reference within its reach is refused. -/
  | stumble {f : UrlFault} (refused : Stumbles s c ns f) : Breaks s c ns (.badUrl f)
  /-- A page does not answer as pages do. -/
  | page {c' : Context} {ns' : List Node} {url : Text} {e : Halt} (enters : Enters s c ns c' ns')
    (leads : Leads s c' ns' url) (broken : s.content url = .error e) : Breaks s c ns e

variable {s : Setup} {c c' c'' : Context} {ns ns' ns'' ms children : List Node} {url : Text}
  {p q r : Progress}

theorem Act.of_deed (h : Deed s c ns p q) : Act s c ns p q := ⟨c, ns, .refl c ns, h⟩

theorem Acts.of_deed (h : Deed s c ns p q) : Acts s c ns p q := .single (.of_deed h)

theorem Acts.inside (leads : Leads s c ns url) (content : s.content url = .ok (.ok children))
    (enters : c.canDescend = true) (h : Acts s (c.descend url) children p q) : Acts s c ns p q :=
  Relation.ReflTransGen.mono (fun _ _ ⟨c', ns', henters, hdeed⟩ =>
    ⟨c', ns', .inside leads content enters henters, hdeed⟩) _ _ h

theorem Breaks.inside {e : Halt} (leads : Leads s c ns url)
    (content : s.content url = .ok (.ok children)) (enters : c.canDescend = true)
    (h : Breaks s (c.descend url) children e) : Breaks s c ns e := by
  cases h with
  | stumble refused => exact .stumble (.inside leads content enters refused)
  | page henters leads' broken => exact .page (.inside leads content enters henters) leads' broken

/-- What every deed of a walk keeps, the walk keeps. -/
theorem Acts.keep {P : Progress → Prop}
    (step : ∀ c' ns' p q, Enters s c ns c' ns' → P p → Deed s c' ns' p q → P q)
    (h : Acts s c ns p q) (hp : P p) : P q := by
  induction h with
  | refl => exact hp
  | tail _ hact ih =>
    obtain ⟨c', ns', henters, hdeed⟩ := hact
    exact step c' ns' _ _ henters ih hdeed

/-- What every descent keeps, each context that the walk enters has. -/
theorem Enters.keep {P : Context → Prop}
    (step : ∀ c ns url children, P c → Leads s c ns url → s.content url = .ok (.ok children) →
      P (c.descend url))
    (h : Enters s c ns c' ns') (hc : P c) : P c' := by
  induction h with
  | refl => exact hc
  | inside leads content _ _ ih => exact ih (step _ _ _ _ hc leads content)

theorem Enters.trans (h : Enters s c ns c' ns') (h' : Enters s c' ns' c'' ns'') :
    Enters s c ns c'' ns'' := by
  induction h with
  | refl => exact h'
  | inside leads content enters _ ih => exact .inside leads content enters (ih h')

namespace OnePass

variable {y z : Yield}

/-- The pass asks for each page that it puts in the place of an import. -/
theorem mem_asked_of_replace {enter : Context → List Node → Except Halt Yield} {n : Node}
    {d : Import} (h : replace s enter c n d url = .ok z) : url ∈ z.asked := by
  unfold replace at h
  split at h
  · cases h
  · cases h
    simp
  · obtain ⟨w, -, rfl⟩ := map_eq_ok_iff.1 h
    simp

/-- The pass puts each page that it is led to in its place. -/
theorem exists_replace_of_enters (enters : Enters s c ns c' ns') (leads : Leads s c' ns' url)
    {fuel : Nat} (h : inline s fuel c ns = .ok y) :
    ∃ fuel' n d z, replace s (inline s fuel') c' n d url = .ok z ∧ z.Within y := by
  induction enters generalizing fuel y with
  | refl c ns =>
    cases fuel with
    | zero => cases h
    | succ fuel => exact ⟨fuel, exists_replace_of_leads h leads⟩
  | @inside c c' ns children ns' url' leads' content enters _ ih =>
    cases fuel with
    | zero => cases h
    | succ fuel =>
      obtain ⟨n, d, z, hz, hsub⟩ := exists_replace_of_leads h leads'
      rw [replace, content] at hz
      obtain ⟨w, hw, rfl⟩ := map_eq_ok_iff.1 hz
      rw [visit, if_pos enters] at hw
      obtain ⟨fuel', m, e, v, hv, hsub'⟩ := ih leads hw
      exact ⟨fuel', m, e, v, hv, List.Subset.trans hsub'.findings hsub.findings,
        List.Subset.trans (List.subset_cons_of_subset url' hsub'.asked) hsub.asked⟩

/-- The pass asks for every page that it is led to. -/
theorem mem_asked_of_enters (enters : Enters s c ns c' ns') (leads : Leads s c' ns' url)
    {fuel : Nat} (h : inline s fuel c ns = .ok y) : url ∈ y.asked := by
  obtain ⟨fuel', n, d, z, hz, hsub⟩ := exists_replace_of_enters enters leads h
  exact hsub.asked (mem_asked_of_replace hz)

end OnePass

theorem Deed.honest (h : Deed s c ns p q) (hp : p.ledger.Honest s.network) :
    q.ledger.Honest s.network := by
  cases h with
  | request mem plan_eq granted =>
    obtain ⟨l, events, hr, hl, -⟩ := hp.request _
    rw [granted] at hr
    cases hr
    exact hl
  | _ => exact hp

theorem Deed.requested_mono (h : Deed s c ns p q) (hp : p.ledger.Honest s.network) {u : Text}
    (hu : u ∈ p.ledger.requested) : u ∈ q.ledger.requested := by
  cases h with
  | @request n d url l events mem plan_eq granted =>
    obtain ⟨l', events', hr, -, hasked, -⟩ := hp.request url
    rw [granted] at hr
    cases hr
    exact (hasked u).2 (.inl hu)
  | _ => exact hu

theorem Acts.honest (h : Acts s c ns p q) (hp : p.ledger.Honest s.network) :
    q.ledger.Honest s.network :=
  h.keep (fun _ _ _ _ _ hp hdeed => hdeed.honest hp) hp

theorem Acts.requested_mono (h : Acts s c ns p q) (hp : p.ledger.Honest s.network) {u : Text}
    (hu : u ∈ p.ledger.requested) : u ∈ q.ledger.requested :=
  (h.keep (P := fun p => p.ledger.Honest s.network ∧ u ∈ p.ledger.requested)
    (fun _ _ _ _ _ hp hdeed => ⟨hdeed.honest hp.1, hdeed.requested_mono hp.1 hp.2⟩) ⟨hp, hu⟩).2

/-- Content is the content of a body. -/
theorem Setup.answer_of_content (h : s.content url = .ok (.ok children)) :
    ∃ text, s.network.answer url = .body text := by
  unfold content at h
  split at h
  · cases h
  · cases h
  · cases h
  · rename_i text ha
    exact ⟨text, ha⟩

/-- Content that is not anchored is a page as it was read. -/
theorem Setup.content_of_off (hoff : s.options.anchorReferences = false)
    (h : s.content url = .ok (.ok children)) :
    ∃ page, s.page? url = some page ∧ page.children = children := by
  unfold content at h
  unfold page?
  split at h
  · cases h
  · cases h
  · cases h
  · rename_i text ha
    rw [ha]
    dsimp only
    split at h
    · cases h
    · rename_i page hpage
      simp only [hoff, Bool.false_eq_true, if_false] at h
      cases h
      exact ⟨page, by rw [hpage]; rfl, rfl⟩

/-- What keeps the content of a page from being told: a reference in it, or the page itself. -/
theorem Setup.content_error {e : Halt} (h : s.content url = .error e) :
    (∃ f, e = .badUrl f) ∨ (∃ m, e = .crashed m ∧ s.network.answer url = .crash m) ∨
      e = .stalled ∧ s.network.answer url = .silence := by
  unfold content at h
  split at h
  · cases h
  · rename_i m ha
    cases h
    exact .inr (.inl ⟨m, rfl, ha⟩)
  · rename_i ha
    cases h
    exact .inr (.inr ⟨rfl, ha⟩)
  · split at h
    · cases h
    · split at h
      · split at h
        · cases h
          exact .inl ⟨_, rfl⟩
        · cases h
      · cases h

/-- The size of the network bounds the number of its bodies. -/
def Network.Bounded (net : Network) : Prop :=
  ∀ urls : List Text, urls.Nodup → (∀ u ∈ urls, ∃ text, net.answer u = .body text) →
    urls.length ≤ net.size

theorem Network.bounded_ofPages (headers : Headers) (pages : List (Text × Page)) :
    (ofPages headers pages).Bounded := by
  intro urls hnodup hbody
  have hsub : urls ⊆ pages.map Prod.fst := by
    intro u hu
    obtain ⟨text, ht⟩ := hbody u hu
    rcases answer_ofPages headers pages u with ⟨page, hmem, -⟩ | hnone
    · exact List.mem_map.2 ⟨_, hmem, rfl⟩
    · rw [ht] at hnone
      cases hnone
  simpa [ofPages] using (List.subperm_of_subset hnodup hsub).length_le

/-- The fuel is enough for all pages with a body that are not around the walk. -/
def Fits (s : Setup) (fuel : Nat) (c : Context) : Prop :=
  ∃ urls : List Text, urls.Nodup ∧
    (∀ u ∈ urls, u ∈ c.stack ∧ ∃ text, s.network.answer u = .body text) ∧
    s.network.size < urls.length + fuel

namespace Fits

variable {fuel : Nat}

theorem start (s : Setup) (origin : Option Text) :
    Fits s (s.network.size + 2) (.atStart s.options origin) := ⟨[], by simp⟩

theorem pos (h : Fits s fuel c) (hs : s.network.Bounded) : 0 < fuel := by
  obtain ⟨urls, hnodup, hurls, hsize⟩ := h
  have := hs urls hnodup fun u hu => (hurls u hu).2
  omega

/-- A descent takes one unit of fuel and one page that was not around the walk. -/
theorem descend (h : Fits s (fuel + 1) c) (hfresh : c.visited url = false)
    (hbody : ∃ text, s.network.answer url = .body text) : Fits s fuel (c.descend url) := by
  obtain ⟨urls, hnodup, hurls, hsize⟩ := h
  have hstack : url ∉ c.stack := by simpa [Context.visited] using hfresh
  have hnew : url ∉ urls := fun hu => hstack (hurls url hu).1
  refine ⟨url :: urls, List.nodup_cons.2 ⟨hnew, hnodup⟩, ?_, by simp only [List.length_cons]; omega⟩
  intro u hu
  rcases List.mem_cons.1 hu with rfl | hu
  · exact ⟨by simp [Context.descend], hbody⟩
  · exact ⟨by simp [Context.descend, (hurls u hu).1], (hurls u hu).2⟩

/-- A page that the walk is led to and that has content was not around it. -/
theorem inside (h : Fits s (fuel + 1) c) (leads : Leads s c ns url)
    (content : s.content url = .ok (.ok children)) : Fits s fuel (c.descend url) := by
  obtain ⟨d, n, -, -, hfresh⟩ := leads
  exact h.descend hfresh (Setup.answer_of_content content)

end Fits

theorem leads_of_fetch {n : Node} {d : Import} (hn : n ∈ Node.walkAll ns)
    (h : Plan.ofNode s c n = .ok (.fetch d url)) : Leads s c ns url := by
  obtain ⟨hd, hremote, hfresh⟩ := Plan.ofNode_fetch_iff.1 h
  exact ⟨d, n, Import.mem_findAll.2 ⟨hn, hd⟩, hremote, hfresh⟩

namespace Run

variable {α β : Type} {Q : α → Progress → Prop} {R : β → Progress → Prop}
  {E : Halt → Progress → Prop}

/-- A computation that starts at `p` ends with a value and a progress of which `Q` holds, or fails
with a fault and a progress of which `E` holds. -/
def Meets (m : Run α) (p : Progress) (Q : α → Progress → Prop) (E : Halt → Progress → Prop) :
    Prop :=
  (∀ a q, Ends m p (.ok a) q → Q a q) ∧ ∀ e q, Ends m p (.error e) q → E e q

theorem meets_of_outcome {m : Run α} {x : Except Halt α} (h : m.outcome p = (x, q))
    (hok : ∀ a, x = .ok a → Q a q) (herr : ∀ e, x = .error e → E e q) : Meets m p Q E := by
  constructor
  · intro a r hr
    rw [Ends, h] at hr
    cases hr
    exact hok a rfl
  · intro e r hr
    rw [Ends, h] at hr
    cases hr
    exact herr e rfl

theorem meets_pure {a : α} (h : Q a p) : Meets (pure a) p Q E :=
  meets_of_outcome (outcome_pure a p) (fun _ ha => by cases ha; exact h) (fun _ he => by cases he)

theorem Meets.bind {m : Run α} {f : α → Run β}
    (h : Meets m p (fun a r => Meets (f a) r R E) E) : Meets (m >>= f) p R E := by
  constructor
  · intro b q hb
    obtain ⟨a, r, ha, hf⟩ := ends_bind_ok.1 hb
    exact (h.1 a r ha).1 b q hf
  · intro e q he
    rcases ends_bind_error.1 he with he | ⟨a, r, ha, hf⟩
    · exact h.2 e q he
    · exact (h.1 a r ha).2 e q hf

theorem Meets.imp {m : Run α} {Q' : α → Progress → Prop} {E' : Halt → Progress → Prop}
    (h : Meets m p Q E) (hq : ∀ a q, Q a q → Q' a q) (he : ∀ e q, E e q → E' e q) :
    Meets m p Q' E' :=
  ⟨fun a q ha => hq a q (h.1 a q ha), fun e q hf => he e q (h.2 e q hf)⟩

theorem meets_checkAborted {Q : Unit → Progress → Prop} (h : Q () p)
    (he : s.abortAfter ≠ none → E .aborted p) : Meets (checkAborted s) p Q E := by
  refine meets_of_outcome (outcome_checkAborted s p) (fun a ha => h) (fun e hf => ?_)
  split at hf
  · rename_i hab
    cases hf
    refine he fun hno => ?_
    simp [isAborted, hno] at hab
  · cases hf

/-- What there is to say of a walk over `ns` that started at `p` and failed. -/
def Fails (s : Setup) (c : Context) (ns : List Node) (p : Progress) (e : Halt) (q : Progress) :
    Prop :=
  Acts s c ns p q ∧ (s.abortAfter = none → Breaks s c ns e)

theorem Fails.after {e : Halt} (h : Fails s c ns r e q) (hr : Acts s c ns p r) :
    Fails s c ns p e q := ⟨hr.trans h.1, h.2⟩

theorem Fails.stop (h : s.abortAfter ≠ none) (e : Halt) : Fails s c ns p e p :=
  ⟨.refl, fun hno => absurd hno h⟩

theorem Fails.inside {e : Halt} (leads : Leads s c ns url)
    (content : s.content url = .ok (.ok children)) (enters : c.canDescend = true)
    (h : Fails s (c.descend url) children p e q) : Fails s c ns p e q :=
  ⟨.inside leads content enters h.1, fun ha => .inside leads content enters (h.2 ha)⟩

theorem meets_order {n : Node} (hn : n ∈ Node.walkAll ns) (hp : p.ledger.Honest s.network) :
    Meets (order s c n) p
      (fun o q => Acts s c ns p q ∧ ∃ plan, Plan.ofNode s c n = .ok plan ∧ o = plan.order? ∧
        ∀ u ∈ (plan.early c).asked, u ∈ q.ledger.requested)
      (Fails s c ns p) := by
  cases hplan : Plan.ofNode s c n with
  | error f =>
    refine meets_of_outcome (outcome_order_error hplan p) (fun a ha => by cases ha) fun e he => ?_
    cases he
    obtain ⟨d, hd, hf⟩ := Plan.ofNode_error_iff.1 hplan
    exact ⟨.refl, fun _ => .stumble (.target (Import.mem_findAll.2 ⟨hn, hd⟩) hf)⟩
  | ok plan =>
    cases plan with
    | fetch d url =>
      obtain ⟨l, events, hr, -, hasked, -⟩ := hp.request url
      have ho := outcome_order_fetch hplan p
      rw [hr] at ho
      refine meets_of_outcome ho (fun o h => ?_) (fun e he => by cases he)
      cases h
      exact ⟨.of_deed (.request hn hplan hr), _, rfl, rfl, by simp [Plan.early, hasked]⟩
    | _ =>
      refine meets_of_outcome (outcome_order_of_none hplan rfl p) (fun o h => ?_)
        (fun e he => by cases he)
      cases h
      exact ⟨.of_deed (.remain hn hplan rfl), _, rfl, rfl, by simp [Plan.early, Yield.skipped]⟩

theorem meets_orders (hsub : ∀ m ∈ Node.walkAll ms, m ∈ Node.walkAll ns)
    (hp : p.ledger.Honest s.network) :
    Meets (orders s c ms) p
      (fun os q => Acts s c ns p q ∧ ∃ plans, PlansOf s c ms plans ∧ os = plans.map Plan.order? ∧
        ∀ u ∈ (Plan.earlyAll c plans).asked, u ∈ q.ledger.requested)
      (Fails s c ns p) := by
  induction ms generalizing p with
  | nil => exact meets_pure ⟨.refl, [], .nil, rfl, by simp [Plan.earlyAll]⟩
  | cons n ms ih =>
    rw [orders]
    have hn : n ∈ Node.walkAll ns := hsub n (Node.mem_walkAll_of_mem (by simp))
    refine .bind ((meets_order hn hp).imp ?_ fun _ _ h => h)
    rintro o r ⟨hr, plan, hplan, rfl, hasked⟩
    refine .bind ((ih (fun m hm => hsub m (by simp [hm])) (hr.honest hp)).imp ?_
      fun _ _ h => h.after hr)
    rintro os q ⟨hq, plans, hplans, rfl, hlater⟩
    refine meets_pure ⟨hr.trans hq, plan :: plans, .cons hplan hplans, rfl, fun u hu => ?_⟩
    rcases List.mem_append.1 hu with hu | hu
    · exact hq.requested_mono (hr.honest hp) (hasked u hu)
    · exact hlater u hu

theorem meets_reportLeft {found : List (Import × Node)} (leads : Leads s c ns url)
    (content : s.content url = .ok (.ok children)) (stays : c.canDescend = false)
    (hsub : ∀ x ∈ found, x ∈ Import.findAll children (c.descend url).origin) :
    Meets (reportLeft s (c.descend url) found) p (fun _ q => Acts s c ns p q)
      (Fails s c ns p) := by
  induction found generalizing p with
  | nil => exact meets_pure .refl
  | cons x rest ih =>
    obtain ⟨d, n⟩ := x
    have hx := hsub (d, n) (by simp)
    have ho := outcome_reportLeft_cons s (c.descend url) d n rest p
    cases ht : Target.classify d.target (c.descend url).origin s.options.schemeText with
    | error f =>
      rw [ht] at ho
      refine meets_of_outcome ho (fun a ha => by cases ha) (fun e he => ?_)
      cases he
      exact ⟨.refl, fun _ => .stumble (.left leads content stays hx ht)⟩
    | ok target =>
      rw [ht] at ho
      have hdeed : Acts s c ns p (p.noting (OnePass.remark s (c.descend url) target)) :=
        .of_deed (.remark leads content stays hx ht)
      have hrest := ih (p := p.noting (OnePass.remark s (c.descend url) target))
        fun y hy => hsub y (List.mem_cons_of_mem _ hy)
      constructor
      · intro a q h
        exact hdeed.trans (hrest.1 a q (ho.symm.trans h))
      · intro e q h
        exact (hrest.2 e q (ho.symm.trans h)).after hdeed

/-- Walking over the content of a page does deeds of that walk, and fails for a reason in it. -/
def Descends (s : Setup) (descend : Context → List Node → Run (List Node)) (c : Context)
    (ns : List Node) : Prop :=
  ∀ url children p, Leads s c ns url → s.content url = .ok (.ok children) → c.canDescend = true →
    p.ledger.Honest s.network →
    Meets (descend (c.descend url) children) p (fun _ q => Acts s (c.descend url) children p q)
      (Fails s (c.descend url) children p)

variable {descend : Context → List Node → Run (List Node)}

theorem meets_visit (hd : Descends s descend c ns) (hp : p.ledger.Honest s.network)
    (leads : Leads s c ns url) (content : s.content url = .ok (.ok children)) :
    Meets (visit s descend c url children) p (fun _ q => Acts s c ns p q) (Fails s c ns p) := by
  unfold visit
  by_cases hc : c.canDescend
  · simp only [hc, if_true]
    exact (hd url children p leads content hc hp).imp
      (fun _ _ h => .inside leads content hc h) (fun _ _ h => h.inside leads content hc)
  · simp only [hc, Bool.false_eq_true, if_false]
    exact .bind ((meets_reportLeft leads content (by simpa using hc) fun _ hx => hx).imp
      (fun _ _ h => meets_pure h) fun _ _ h => h)

theorem meets_inline (hd : Descends s descend c ns) (hp : p.ledger.Honest s.network) {n : Node}
    {d : Import} (hn : n ∈ Node.walkAll ns) (hplan : Plan.ofNode s c n = .ok (.fetch d url))
    (hu : url ∈ p.ledger.requested) :
    Meets (inline s descend c n (d, url)) p (fun _ q => Acts s c ns p q) (Fails s c ns p) := by
  have ho : outcome (inline s descend c n (d, url)) p = _ := outcome_inline (hp.answer?_eq hu)
  have leads := leads_of_fetch hn hplan
  by_cases hw : stopsWaiting s p url (s.network.answer url)
  · rw [if_pos hw] at ho
    refine meets_of_outcome ho (fun a ha => by cases ha) (fun e _ => Fails.stop (fun hno => ?_) e)
    rw [stopsWaiting, isAborted, hno] at hw
    cases hw
  rw [if_neg hw] at ho
  cases hc : s.content url with
  | error e =>
    rw [hc] at ho
    refine meets_of_outcome ho (fun a ha => by cases ha) (fun e he => ?_)
    cases he
    exact ⟨.refl, fun _ => .page (.refl c ns) leads hc⟩
  | ok page =>
    cases page with
    | error f =>
      rw [hc] at ho
      exact meets_of_outcome ho (fun a _ => .of_deed (.leave hn hplan hc)) (fun e he => by cases he)
    | ok children =>
      rw [hc] at ho
      have hrest : Meets (do
          let content ← visit s descend c url children
          tell (.resolved url c.depth d.media)
          pure (Edit.splice (replacement d n content))) p (fun _ q => Acts s c ns p q)
          (Fails s c ns p) := by
        refine .bind ((meets_visit hd hp leads hc).imp (fun content r hr => ?_) fun _ _ h => h)
        refine .bind ⟨fun u q ht => ?_, fun e q ht => ?_⟩
        · obtain ⟨-, rfl⟩ := ends_tell.1 ht
          exact meets_pure (hr.trans (Acts.of_deed (.replace hn hplan hc)))
        · cases (ends_tell.1 ht).1
      exact ⟨fun a q h => hrest.1 a q (ho.symm.trans h), fun e q h => hrest.2 e q (ho.symm.trans h)⟩

/-- The edit of a node does deeds of the walk. -/
def Edits (s : Setup) (descend : Context → List Node → Run (List Node)) (c : Context)
    (ns : List Node) (n : Node) : Prop :=
  ∀ plan p, p.ledger.Honest s.network → Plan.ofNode s c n = .ok plan →
    (∀ u ∈ (plan.early c).asked, u ∈ p.ledger.requested) →
    Meets (editNode s (inline s descend) c n plan.order?) p (fun _ q => Acts s c ns p q)
      (Fails s c ns p)

theorem meets_editNodes (hn : ∀ m ∈ ms, Edits s descend c ns m) (hp : p.ledger.Honest s.network)
    {plans : List Plan} (hplans : PlansOf s c ms plans)
    (hu : ∀ u ∈ (Plan.earlyAll c plans).asked, u ∈ p.ledger.requested) :
    Meets (editNodes s (inline s descend) c ms (plans.map Plan.order?)) p
      (fun _ q => Acts s c ns p q) (Fails s c ns p) := by
  induction hplans generalizing p with
  | nil =>
    rw [List.map_nil, editNodes]
    · exact meets_pure .refl
    · simp
  | @cons n plan ms plans hplan hplans ih =>
    rw [List.map_cons, editNodes]
    refine .bind ((hn n (by simp) plan p hp hplan
      fun u hm => hu u (List.mem_append_left _ hm)).imp (fun e r hr => ?_) fun _ _ h => h)
    refine .bind ((ih (fun m hm => hn m (by simp [hm])) (hr.honest hp) fun u hm =>
      hr.requested_mono hp (hu u (List.mem_append_right _ hm))).imp (fun es q hq => ?_)
      fun _ _ h => h.after hr)
    exact meets_pure (hr.trans hq)

theorem meets_siblings (hn : ∀ m ∈ ms, Edits s descend c ns m)
    (hsub : ∀ m ∈ Node.walkAll ms, m ∈ Node.walkAll ns) (hp : p.ledger.Honest s.network) :
    Meets (do
        checkAborted s
        let os ← orders s c ms
        editNodes s (inline s descend) c ms os) p
      (fun _ q => Acts s c ns p q) (Fails s c ns p) := by
  refine .bind (meets_checkAborted ?_ fun ha => .stop ha _)
  refine .bind ((meets_orders hsub hp).imp ?_ fun _ _ h => h)
  rintro os r ⟨hr, plans, hplans, rfl, hu⟩
  exact (meets_editNodes hn (hr.honest hp) hplans hu).imp (fun _ _ h => hr.trans h)
    fun _ _ h => h.after hr

theorem edits_node (hd : Descends s descend c ns) {n : Node}
    (hsub : ∀ m ∈ n.walk, m ∈ Node.walkAll ns) : Edits s descend c ns n := by
  induction n using Node.induction with
  | leaf n hn =>
    intro plan p hp hplan hu
    cases plan with
    | fetch d url =>
      change Meets (editNode s (inline s descend) c n (some (d, url))) p _ _
      rw [editNode_order]
      exact meets_inline hd hp (hsub n n.mem_walk_self) hplan (hu url (by simp [Plan.early]))
    | _ =>
      change Meets (editNode s (inline s descend) c n none) p _ _
      rw [editNode_leaf hn]
      exact meets_pure .refl
  | block before h children after ih =>
    intro plan p hp hplan hu
    cases hplan
    change Meets (editNode s (inline s descend) c (.block before h children after) none) p _ _
    rw [editNode_block]
    split
    · have hwalk : ∀ m ∈ Node.walkAll children, m ∈ Node.walkAll ns := fun m hm =>
        hsub m (by rw [Node.walk]; exact List.mem_cons_of_mem _ hm)
      have hinner := meets_siblings (fun m hm => ih m hm fun k hk =>
        hwalk k (Node.mem_walkAll.2 ⟨m, hm, hk⟩)) hwalk hp
      have hwithin : Meets (do
          let edits ← (do
            checkAborted s
            let os ← orders s c children
            editNodes s (inline s descend) c children os)
          pure (Edit.within edits)) p (fun _ q => Acts s c ns p q) (Fails s c ns p) :=
        .bind (hinner.imp (fun _ _ h => meets_pure h) fun _ _ h => h)
      simpa only [bind_assoc] using hwithin
    · exact meets_pure .refl

/-- A walk over the nodes of a sheet is a list of deeds, and fails for what is within its reach. -/
theorem meets_edits (hs : s.network.Bounded) {fuel : Nat} (hfits : Fits s fuel c)
    (hp : p.ledger.Honest s.network) :
    Meets (edits s fuel c ns) p (fun _ q => Acts s c ns p q) (Fails s c ns p) := by
  induction fuel generalizing c ns p with
  | zero => exact absurd (hfits.pos hs) (by omega)
  | succ fuel ih =>
    rw [edits]
    have hd : Descends s (fun c ns => return Edit.applyAll ns (← edits s fuel c ns)) c ns := by
      intro url children p leads content hc hp
      have hinner := hfits.inside leads content
      exact .bind ((ih hinner hp).imp (fun _ _ h => meets_pure h) fun _ _ h => h)
    refine meets_siblings (fun n hn => edits_node hd fun m hm => ?_) (fun _ hm => hm) hp
    exact Node.mem_walkAll.2 ⟨n, hn, hm⟩

end Run

/-- What the walk over the nodes of a sheet does, the run over the sheet does, however it ends. -/
theorem Sheet.acts_of_meets {s : Setup} {sheet : Sheet} :
    let start := Context.atStart s.options sheet.origin
    Run.Meets (Run.edits s (s.network.size + 2) start sheet.children) {}
      (fun _ q => Acts s start sheet.children {} q) (Run.Fails s start sheet.children {}) →
    Acts s start sheet.children {} (sheet.resolve s).progress ∧
      ∀ e, (sheet.resolve s).edits = .error e → s.abortAfter = none →
        Breaks s start sheet.children e := by
  intro start hrun
  refine ⟨?_, fun e he => (hrun.2 e _ (Sheet.ends_of_resolve he)).2⟩
  cases he : (sheet.resolve s).edits with
  | ok edits => exact hrun.1 edits _ (Sheet.ends_of_resolve he)
  | error e => exact (hrun.2 e _ (Sheet.ends_of_resolve he)).1

/-- A run over a sheet is a list of deeds, however it ends; it fails for what is in its reach. -/
theorem Sheet.meets_resolve {s : Setup} (hs : s.network.Bounded) (sheet : Sheet) :
    let start := Context.atStart s.options sheet.origin
    Acts s start sheet.children {} (sheet.resolve s).progress ∧
      ∀ e, (sheet.resolve s).edits = .error e → s.abortAfter = none →
        Breaks s start sheet.children e :=
  acts_of_meets (Run.meets_edits hs (Fits.start s sheet.origin) (Ledger.honest_empty _))

end StyleSplice
