import StyleSplice.Proofs.Resolve.Deeds

/-!
# Runs side by side

Two runs that differ in nothing but how deep they may go take the same steps, except for pages that
the first of them does not walk over. So a relation between their progress that every common step
keeps, and the steps over such pages too, holds at the end; and both end with the same result. With
the same depth for both, this says what a single run keeps.
-/

namespace StyleSplice

/-- The same setup with another say on how deep a run goes. -/
def Setup.withDepth (s : Setup) (recursive : Bool) (limit : Option Nat) : Setup :=
  { s with options := { s.options with recursive, maxDepth := limit } }

/-- The context at the same place in a run with another say on how deep it goes. -/
def Context.withDepth (c : Context) (recursive : Bool) (limit : Option Nat) : Context :=
  { c with options := { c.options with recursive, maxDepth := limit } }

/-- The progress after a page was asked for. -/
def Progress.asking (p : Progress) (l : Ledger) (events : List Event) : Progress :=
  { p with ledger := l, trace := p.trace ++ events }

namespace Run

variable {α β : Type} {s : Setup} {recursive : Bool} {limit : Option Nat}
  {R : Progress → Progress → Prop} {c : Context} {ns ms children : List Node} {url : Text}
  {p p' q q' : Progress}

/-- Walks over nodes: what is left in their place. -/
def walk (s : Setup) (fuel : Nat) (c : Context) (ns : List Node) : Run (List Node) :=
  return Edit.applyAll ns (← edits s fuel c ns)

/-- Both computations end with the same result, and what they leave is related. -/
structure Tracks (R : Progress → Progress → Prop) (m m' : Run α) (p p' : Progress) : Prop where
  result : (m'.outcome p').1 = (m.outcome p).1
  progress : R (m.outcome p).2 (m'.outcome p').2

theorem tracks_of_outcome {m m' : Run α} {x : Except Halt α} (h : m.outcome p = (x, q))
    (h' : m'.outcome p' = (x, q')) (hR : R q q') : Tracks R m m' p p' :=
  ⟨by rw [h, h'], by rwa [h, h']⟩

theorem tracks_pure (a : α) (h : R p p') : Tracks R (pure a) (pure a) p p' := ⟨rfl, h⟩

theorem Tracks.bind {m m' : Run α} {f f' : α → Run β} (h : Tracks R m m' p p')
    (hf : ∀ a q q', Ends m p (.ok a) q → R q q' → Tracks R (f a) (f' a) q q') :
    Tracks R (m >>= f) (m' >>= f') p p' := by
  obtain ⟨hresult, hprogress⟩ := h
  cases hm : m.outcome p with
  | mk x q =>
    cases hm' : m'.outcome p' with
    | mk x' q' =>
      rw [hm, hm'] at hresult hprogress
      obtain rfl : x' = x := hresult
      cases x' with
      | error e =>
        refine tracks_of_outcome (x := .error e) ?_ ?_ hprogress
        · rw [outcome_bind, hm]
        · rw [outcome_bind, hm']
      | ok a =>
        obtain ⟨hr, hp⟩ := hf a q q' hm hprogress
        constructor
        · rw [outcome_bind, outcome_bind, hm, hm']
          exact hr
        · rw [outcome_bind, outcome_bind, hm, hm']
          exact hp

/-- What a run tells in a context, apart from remarks on pages that it does not walk over. -/
inductive Told (s : Setup) (c : Context) : Yield → Prop
  | early {n : Node} {plan : Plan} (plan_eq : Plan.ofNode s c n = .ok plan)
    (idle : plan.order? = none) : Told s c (plan.early c)
  | failed {url : Text} {f : Fault} (content : s.content url = .ok (.error f)) :
    Told s c (.skipped [] c url .failed (some f))
  | resolved (url media : Text) : Told s c { events := [.resolved url c.depth media] }

/-- Every step that two runs have in common keeps a relation between what they leave. -/
structure Links (s : Setup) (R : Progress → Progress → Prop) : Prop where
  honest : ∀ {p p'}, R p p' → p.ledger.Honest s.network
  ledger : ∀ {p p'}, R p p' → p'.ledger = p.ledger
  aborted : ∀ {p p'}, R p p' → isAborted s p' = isAborted s p
  request : ∀ {p p' l events}, R p p' → l.Honest s.network → (∀ e ∈ events, e.isStep = false) →
    R (p.asking l events) (p'.asking l events)
  told : ∀ {c p p' y}, R p p' → Told s c y → R (p.noting y) (p'.noting y)

theorem tracks_checkAborted (hR : Links s R) (h : R p p') :
    Tracks R (checkAborted s) (checkAborted (s.withDepth recursive limit)) p p' := by
  refine tracks_of_outcome (outcome_checkAborted s p) ?_ h
  rw [outcome_checkAborted, ← hR.aborted h]
  rfl

theorem tracks_order (hR : Links s R) (h : R p p') (n : Node) :
    Tracks R (order s c n) (order (s.withDepth recursive limit) (c.withDepth recursive limit) n)
      p p' := by
  have hsame : Plan.ofNode (s.withDepth recursive limit) (c.withDepth recursive limit) n =
      Plan.ofNode s c n := rfl
  cases hplan : Plan.ofNode s c n with
  | error f =>
    exact tracks_of_outcome (outcome_order_error hplan p)
      (outcome_order_error (hsame.trans hplan) p') h
  | ok plan =>
    cases plan with
    | fetch d url =>
      obtain ⟨l, events, hr, hl, -, hsteps⟩ := (hR.honest h).request url
      have ho := outcome_order_fetch hplan p
      have ho' := outcome_order_fetch (hsame.trans hplan) p'
      have hnetwork : (s.withDepth recursive limit).network = s.network := rfl
      rw [hr] at ho
      rw [hR.ledger h, hnetwork, hr] at ho'
      exact tracks_of_outcome ho ho' (hR.request h hl hsteps)
    | _ =>
      exact tracks_of_outcome (outcome_order_of_none hplan rfl p)
        (outcome_order_of_none (hsame.trans hplan) rfl p') (hR.told h (.early hplan rfl))

theorem tracks_orders (hR : Links s R) (h : R p p') (ns : List Node) :
    Tracks R (orders s c ns) (orders (s.withDepth recursive limit) (c.withDepth recursive limit) ns)
      p p' := by
  induction ns generalizing p p' with
  | nil => exact tracks_pure [] h
  | cons n ns ih =>
    rw [orders, orders]
    exact (tracks_order hR h n).bind fun o q q' _ hq =>
      (ih hq).bind fun os r r' _ hr => tracks_pure (o :: os) hr

theorem tracks_tell (hR : Links s R) (h : R p p') (url media : Text) :
    Tracks R (tell (.resolved url c.depth media)) (tell (.resolved url c.depth media)) p p' :=
  tracks_of_outcome (ends_tell.2 ⟨rfl, rfl⟩) (ends_tell.2 ⟨rfl, rfl⟩)
    (hR.told h (.resolved url media))

/-- A page that has not been asked for cannot be waited for. -/
theorem outcome_inline_of_none {descend : Context → List Node → Run (List Node)} {n : Node}
    {d : Import} (h : p.ledger.answer? url = none) :
    (inline s descend c n (d, url)).outcome p = (.error .noRequest, p) := by
  unfold inline
  simp only [outcome_bind, outcome_await, h]

variable {descend descend' : Context → List Node → Run (List Node)}

theorem tracks_inline (hR : Links s R) (h : R p p') {n : Node} {d : Import}
    (hvisit : ∀ children q q', s.content url = .ok (.ok children) → R q q' →
      Tracks R (visit s descend c url children)
        (visit (s.withDepth recursive limit) descend' (c.withDepth recursive limit) url children)
        q q') :
    Tracks R (inline s descend c n (d, url))
      (inline (s.withDepth recursive limit) descend' (c.withDepth recursive limit) n (d, url))
      p p' := by
  cases ha : p.ledger.answer? url with
  | none =>
    exact tracks_of_outcome (outcome_inline_of_none ha)
      (outcome_inline_of_none (by rw [hR.ledger h, ha])) h
  | some a =>
    have hasked : url ∈ p.ledger.requested := Ledger.isSome_answer?_iff.1 (by rw [ha]; rfl)
    have hanswer := (hR.honest h).answer?_eq hasked
    have hanswer' := hanswer
    rw [← hR.ledger h] at hanswer'
    have ho : outcome (inline s descend c n (d, url)) p = _ := outcome_inline hanswer
    have ho' : outcome (inline (s.withDepth recursive limit) descend'
        (c.withDepth recursive limit) n (d, url)) p' = _ := outcome_inline hanswer'
    have hcontent : (s.withDepth recursive limit).content url = s.content url := rfl
    have hstops : stopsWaiting (s.withDepth recursive limit) p' url
        ((s.withDepth recursive limit).network.answer url) =
        stopsWaiting s p url (s.network.answer url) := by
      rw [stopsWaiting, stopsWaiting, ← hR.aborted h]
      rfl
    rw [hcontent, hstops] at ho'
    by_cases hw : stopsWaiting s p url (s.network.answer url)
    · rw [if_pos hw] at ho ho'
      exact tracks_of_outcome ho ho' h
    rw [if_neg hw] at ho ho'
    cases hc : s.content url with
    | error e =>
      rw [hc] at ho ho'
      exact tracks_of_outcome ho ho' h
    | ok page =>
      rw [hc] at ho ho'
      cases page with
      | error f => exact tracks_of_outcome ho ho' (hR.told h (.failed hc))
      | ok children =>
        have hrest : Tracks R (do
              let content ← visit s descend c url children
              tell (.resolved url c.depth d.media)
              pure (Edit.splice (replacement d n content)))
            (do
              let content ← visit (s.withDepth recursive limit) descend'
                (c.withDepth recursive limit) url children
              tell (.resolved url c.depth d.media)
              pure (Edit.splice (replacement d n content))) p p' :=
          (hvisit children p p' hc h).bind fun content q q' _ hq =>
            (tracks_tell hR hq url d.media).bind fun _ r r' _ hr =>
              tracks_pure (Edit.splice (replacement d n content)) hr
        exact ⟨by rw [ho, ho']; exact hrest.result, by rw [ho, ho']; exact hrest.progress⟩

/-- The edits of a node track each other, whatever its plan is. -/
def TracksNode (R : Progress → Progress → Prop) (s : Setup) (recursive : Bool) (limit : Option Nat)
    (descend descend' : Context → List Node → Run (List Node)) (c : Context) (n : Node) : Prop :=
  ∀ plan p p', R p p' → Plan.ofNode s c n = .ok plan →
    Tracks R (editNode s (inline s descend) c n plan.order?)
      (editNode (s.withDepth recursive limit) (inline (s.withDepth recursive limit) descend')
        (c.withDepth recursive limit) n plan.order?) p p'

theorem tracks_editNodes (hn : ∀ n ∈ ms, TracksNode R s recursive limit descend descend' c n)
    (h : R p p') {plans : List Plan} (hplans : PlansOf s c ms plans) :
    Tracks R (editNodes s (inline s descend) c ms (plans.map Plan.order?))
      (editNodes (s.withDepth recursive limit) (inline (s.withDepth recursive limit) descend')
        (c.withDepth recursive limit) ms (plans.map Plan.order?)) p p' := by
  induction hplans generalizing p p' with
  | nil =>
    rw [List.map_nil, editNodes, editNodes]
    · exact tracks_pure [] h
    all_goals simp
  | @cons n plan ms plans hplan hplans ih =>
    rw [List.map_cons, editNodes, editNodes]
    exact (hn n (by simp) plan p p' h hplan).bind fun e q q' _ hq =>
      (ih (fun m hm => hn m (by simp [hm])) hq).bind fun es r r' _ hr => tracks_pure (e :: es) hr

theorem tracks_siblings (hR : Links s R)
    (hn : ∀ n ∈ ms, TracksNode R s recursive limit descend descend' c n) (h : R p p') :
    Tracks R (do
        checkAborted s
        let os ← orders s c ms
        editNodes s (inline s descend) c ms os)
      (do
        checkAborted (s.withDepth recursive limit)
        let os ← orders (s.withDepth recursive limit) (c.withDepth recursive limit) ms
        editNodes (s.withDepth recursive limit) (inline (s.withDepth recursive limit) descend')
          (c.withDepth recursive limit) ms os) p p' := by
  refine (tracks_checkAborted hR h).bind fun _ q q' _ hq => ?_
  refine (tracks_orders hR hq ms).bind fun os r r' hos hr => ?_
  obtain ⟨plans, hplans, rfl, -⟩ := adds_orders (hR.honest hq) hos
  exact tracks_editNodes hn hr hplans

/-- The two runs go on alike in each page that the nodes lead to. -/
def TracksVisits (R : Progress → Progress → Prop) (s : Setup) (recursive : Bool)
    (limit : Option Nat) (descend descend' : Context → List Node → Run (List Node)) (c : Context)
    (ns : List Node) : Prop :=
  ∀ url children p p', Leads s c ns url → s.content url = .ok (.ok children) → R p p' →
    Tracks R (visit s descend c url children)
      (visit (s.withDepth recursive limit) descend' (c.withDepth recursive limit) url children) p p'

theorem tracks_node (hR : Links s R)
    (hv : TracksVisits R s recursive limit descend descend' c ns) {n : Node}
    (hsub : ∀ m ∈ n.walk, m ∈ Node.walkAll ns) :
    TracksNode R s recursive limit descend descend' c n := by
  induction n using Node.induction with
  | leaf n hn =>
    intro plan p p' h hplan
    cases plan with
    | fetch d url =>
      change Tracks R (editNode s (inline s descend) c n (some (d, url)))
        (editNode _ (inline _ descend') _ n (some (d, url))) p p'
      rw [editNode_order, editNode_order]
      have leads := leads_of_fetch (hsub n n.mem_walk_self) hplan
      exact tracks_inline hR h fun children q q' hc hq => hv url children q q' leads hc hq
    | _ =>
      change Tracks R (editNode s (inline s descend) c n none)
        (editNode _ (inline _ descend') _ n none) p p'
      rw [editNode_leaf hn, editNode_leaf hn]
      exact tracks_pure Edit.keep h
  | block before hd children after ih =>
    intro plan p p' h hplan
    cases hplan
    change Tracks R (editNode s (inline s descend) c (.block before hd children after) none)
      (editNode _ (inline _ descend') _ (.block before hd children after) none) p p'
    rw [editNode_block, editNode_block]
    split
    · have hinner := tracks_siblings hR (fun m hm => ih m hm fun k hk => hsub k (by
        rw [Node.walk]
        exact List.mem_cons_of_mem _ (Node.mem_walkAll.2 ⟨m, hm, hk⟩))) h
      have hwithin := hinner.bind fun es q q' _ hq => tracks_pure (Edit.within es) hq
      simpa only [bind_assoc] using hwithin
    · exact tracks_pure Edit.keep h

/-- Pages that neither run walks over: the remarks on their imports keep the relation. -/
theorem tracks_stays (hc : c.canDescend = false)
    (hc' : (c.withDepth recursive limit).canDescend = false)
    (hremark : ∀ target p p', R p p' → R (p.noting (OnePass.remark s (c.descend url) target))
      (p'.noting (OnePass.remark (s.withDepth recursive limit)
        ((c.withDepth recursive limit).descend url) target))) (h : R p p') :
    Tracks R (visit s descend c url children)
      (visit (s.withDepth recursive limit) descend' (c.withDepth recursive limit) url children)
      p p' := by
  have hreport : ∀ found p p', R p p' → Tracks R (reportLeft s (c.descend url) found)
      (reportLeft (s.withDepth recursive limit) ((c.withDepth recursive limit).descend url) found)
      p p' := by
    intro found
    induction found with
    | nil => exact fun p p' h => tracks_pure () h
    | cons x rest ih =>
      obtain ⟨d, n⟩ := x
      intro p p' h
      have ho := outcome_reportLeft_cons s (c.descend url) d n rest p
      have ho' := outcome_reportLeft_cons (s.withDepth recursive limit)
        ((c.withDepth recursive limit).descend url) d n rest p'
      have hmeant : Target.classify d.target ((c.withDepth recursive limit).descend url).origin
          (s.withDepth recursive limit).options.schemeText =
          Target.classify d.target (c.descend url).origin s.options.schemeText := rfl
      rw [hmeant] at ho'
      cases ht : Target.classify d.target (c.descend url).origin s.options.schemeText with
      | error f =>
        rw [ht] at ho ho'
        exact tracks_of_outcome ho ho' h
      | ok target =>
        rw [ht] at ho ho'
        have hrest := ih _ _ (hremark target p p' h)
        exact ⟨by rw [ho, ho']; exact hrest.result, by rw [ho, ho']; exact hrest.progress⟩
  rw [visit, visit, if_neg (by simp [hc]), if_neg (by simp [hc'])]
  exact (hreport _ p p' h).bind fun _ q q' _ hq => tracks_pure children hq

/-- What is left to say of two runs that differ in how deep they go: `Here` holds wherever the first
of them is, and pages that it does not walk over keep the relation. -/
structure Lockstep (s : Setup) (recursive : Bool) (limit : Option Nat)
    (R : Progress → Progress → Prop) (Here : Nat → Context → List Node → Prop) : Prop
    extends Links s R where
  descends : ∀ {fuel c ns url children}, Here (fuel + 1) c ns → Leads s c ns url →
    s.content url = .ok (.ok children) → c.canDescend = true →
    (c.withDepth recursive limit).canDescend = true ∧ Here fuel (c.descend url) children
  stays : ∀ {fuel c ns url children p p'}, Here (fuel + 1) c ns → Leads s c ns url →
    s.content url = .ok (.ok children) → c.canDescend = false → R p p' →
    Tracks R (visit s (walk s fuel) c url children)
      (visit (s.withDepth recursive limit) (walk (s.withDepth recursive limit) fuel)
        (c.withDepth recursive limit) url children) p p'

theorem tracks_edits {Here : Nat → Context → List Node → Prop}
    (hl : Lockstep s recursive limit R Here) {fuel : Nat} (hat : Here fuel c ns) (h : R p p') :
    Tracks R (edits s fuel c ns)
      (edits (s.withDepth recursive limit) fuel (c.withDepth recursive limit) ns) p p' := by
  induction fuel generalizing c ns p p' with
  | zero => exact tracks_of_outcome (outcome_halt .tooDeep p) (outcome_halt .tooDeep p') h
  | succ fuel ih =>
    rw [edits, edits]
    -- Fuel is spent on pages only; what stands in blocks is left to `tracks_node`.
    have hv : TracksVisits R s recursive limit (walk s fuel)
        (walk (s.withDepth recursive limit) fuel) c ns := by
      intro url children p p' leads content h
      by_cases hc : c.canDescend = true
      · obtain ⟨hc', hinner⟩ := hl.descends hat leads content hc
        rw [visit, visit, if_pos hc, if_pos hc']
        exact (ih hinner h).bind fun es q q' _ hq => tracks_pure (Edit.applyAll children es) hq
      · exact hl.stays hat leads content (by simpa using hc) h
    refine tracks_siblings hl.toLinks (fun n hn => tracks_node hl.toLinks hv fun m hm => ?_) h
    exact Node.mem_walkAll.2 ⟨n, hn, hm⟩

end Run

/-- Runs in lockstep end with the same result, and what they leave is related. -/
theorem Sheet.tracks_resolve {s : Setup} {recursive : Bool} {limit : Option Nat}
    {R : Progress → Progress → Prop} {Here : Nat → Context → List Node → Prop}
    (hl : Run.Lockstep s recursive limit R Here) {sheet : Sheet}
    (hat : Here (s.network.size + 2) (.atStart s.options sheet.origin) sheet.children)
    (h : R {} {}) :
    (sheet.resolve (s.withDepth recursive limit)).edits = (sheet.resolve s).edits ∧
      R (sheet.resolve s).progress (sheet.resolve (s.withDepth recursive limit)).progress :=
  let ⟨hresult, hprogress⟩ := Run.tracks_edits hl hat h
  ⟨hresult, hprogress⟩

namespace Run

/-- Whatever a walk says and asks for keeps a property of its progress. -/
structure Keeps (s : Setup) (P : Progress → Prop) : Prop where
  honest : ∀ {p}, P p → p.ledger.Honest s.network
  request : ∀ {p l events}, P p → l.Honest s.network → (∀ e ∈ events, e.isStep = false) →
    P (p.asking l events)
  told : ∀ {c p y}, P p → Told s c y → P (p.noting y)
  remark : ∀ {c p target}, P p → P (p.noting (OnePass.remark s c target))

/-- A run goes in lockstep with itself. -/
theorem Keeps.lockstep {s : Setup} {P : Progress → Prop} (hP : Keeps s P) :
    Lockstep s s.options.recursive s.options.maxDepth (fun p p' => p' = p ∧ P p)
      fun _ c _ => c.options = s.options where
  honest h := hP.honest h.2
  ledger h := by rw [h.1]
  aborted h := by rw [h.1]
  request h hl hsteps := ⟨by rw [h.1], hP.request h.2 hl hsteps⟩
  told h hy := ⟨by rw [h.1], hP.told h.2 hy⟩
  descends hat _ _ hc := by
    refine ⟨?_, hat⟩
    rw [← hc, Context.withDepth, ← hat]
  stays {fuel c ns url children p p'} hat _ _ hc h := by
    have hsame : c.withDepth s.options.recursive s.options.maxDepth = c := by
      rw [Context.withDepth, ← hat]
    refine tracks_stays hc (by rw [hsame, hc]) (fun target p p' h => ?_) h
    exact ⟨by rw [h.1]; rfl, hP.remark h.2⟩

end Run

/-- What everything that a run says and asks for keeps, the run keeps, however it ends. -/
theorem Sheet.keeps_resolve {s : Setup} {P : Progress → Prop} (hP : Run.Keeps s P) (h : P {})
    (sheet : Sheet) : P (sheet.resolve s).progress :=
  (sheet.tracks_resolve hP.lockstep rfl ⟨rfl, h⟩).2.2

end StyleSplice
