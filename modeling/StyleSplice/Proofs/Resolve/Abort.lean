import StyleSplice.Proofs.Resolve.Refinement

/-!
# Calling a run off

Whether a run has been aborted is looked up in front of each list of nodes, and while a page that it
waits for is not there. In between, the run takes its steps as if nobody had called it off. So a run
that is aborted ends like the run that is left alone, or it stops somewhere on the way of that run:
what it has said and asked for by then is where the other one has started. Which pages are late does
not matter for this.
-/

namespace StyleSplice

/-- The same setup with another say on when the run is aborted. -/
def Setup.abortingAfter (s : Setup) (n : Option Nat) : Setup := { s with abortAfter := n }

/-- The run has been called off. -/
def Halt.IsAbort (h : Halt) : Prop := h = .aborted ∨ h = .abortedWaiting

/-- What has happened at `p` is the start of what has happened at `q`. -/
structure Progress.Precedes (p q : Progress) : Prop where
  requested : p.ledger.requested <+: q.ledger.requested
  trace : p.trace <+: q.trace
  diagnostics : p.diagnostics <+: q.diagnostics

namespace Progress.Precedes

variable {p q r : Progress}

theorem refl (p : Progress) : p.Precedes p :=
  ⟨List.prefix_rfl, List.prefix_rfl, List.prefix_rfl⟩

theorem trans (h : p.Precedes q) (h' : q.Precedes r) : p.Precedes r :=
  ⟨h.requested.trans h'.requested, h.trace.trans h'.trace, h.diagnostics.trans h'.diagnostics⟩

theorem noting (p : Progress) (y : Yield) : p.Precedes (p.noting y) :=
  ⟨List.prefix_rfl, List.prefix_append _ _, List.prefix_append _ _⟩

/-- The events of the walk are a prefix of those that follow. -/
theorem steps (h : p.Precedes q) : p.steps <+: q.steps := h.trace.filter _

end Progress.Precedes

/-- A request adds an address behind those that have been asked for, if it adds any. -/
theorem Ledger.requested_isPrefix {net : Network} {l l' : Ledger} {url : Text} {events : List Event}
    (h : l.request net url = some (l', events)) : l.requested <+: l'.requested := by
  unfold request at h
  split at h
  · cases h
    exact List.prefix_rfl
  · split at h
    · cases h
    · cases h
      simp [requested]

namespace Run

variable {α β : Type} {s : Setup} {c : Context} {n : Nat} {p q : Progress}

/-- Wherever the computation starts, it takes nothing back. -/
def Grows (m : Run α) : Prop := ∀ p : Progress, p.Precedes (m.outcome p).2

theorem grows_order (s : Setup) (c : Context) (n : Node) : Grows (order s c n) := by
  intro p
  cases hplan : Plan.ofNode s c n with
  | error f =>
    rw [outcome_order_error hplan]
    exact .refl p
  | ok plan =>
    cases plan with
    | fetch d url =>
      rw [outcome_order_fetch hplan]
      cases hr : p.ledger.request s.network url with
      | none => exact .refl p
      | some x => exact ⟨Ledger.requested_isPrefix hr, List.prefix_append _ _, List.prefix_rfl⟩
    | _ =>
      rw [outcome_order_of_none hplan rfl]
      exact .noting p _

theorem Grows.bind {m : Run α} {f : α → Run β} (h : Grows m) (hf : ∀ a, Grows (f a)) :
    Grows (m >>= f) := by
  intro p
  have hp := h p
  rw [outcome_bind]
  rcases hm : m.outcome p with ⟨_ | a, r⟩
  · rwa [hm] at hp
  · rw [hm] at hp
    exact hp.trans (hf a r)

theorem grows_pure (a : α) : Grows (pure a) := .refl

theorem grows_orders (s : Setup) (c : Context) (ns : List Node) : Grows (orders s c ns) := by
  induction ns with
  | nil => exact grows_pure []
  | cons n ns ih =>
    rw [orders]
    exact (grows_order s c n).bind fun _ => ih.bind fun _ => grows_pure _

theorem grows_reportLeft (s : Setup) (c : Context) (found : List (Import × Node)) :
    Grows (reportLeft s c found) := by
  induction found with
  | nil => exact grows_pure ()
  | cons x rest ih =>
    obtain ⟨d, n⟩ := x
    intro p
    rw [outcome_reportLeft_cons]
    split
    · exact .refl p
    · exact (Progress.Precedes.noting p _).trans (ih _)

/-- Reports and orders do not ask whether the run has been aborted. -/
theorem reportLeft_abortingAfter (s : Setup) (a : Option Nat) (c : Context)
    (found : List (Import × Node)) : reportLeft (s.abortingAfter a) c found = reportLeft s c found := by
  induction found with
  | nil => rfl
  | cons x rest ih =>
    obtain ⟨d, n⟩ := x
    rw [reportLeft, reportLeft, ih]
    rfl

theorem orders_abortingAfter (s : Setup) (a : Option Nat) (c : Context) (ns : List Node) :
    orders (s.abortingAfter a) c ns = orders s c ns := by
  induction ns with
  | nil => rfl
  | cons n ns ih =>
    rw [orders, orders, ih]
    rfl

theorem grows_ofUrl (x : Except UrlFault α) : Grows (ofUrl x) := by
  cases x <;> exact .refl

theorem grows_tell (e : Event) : Grows (tell e) := by
  intro p
  have ht : Ends (tell e) p (.ok ()) (p.noting { events := [e] }) := ends_tell.2 ⟨rfl, rfl⟩
  rw [ht]
  exact .noting p _

theorem grows_giveUp (c : Context) (url : Text) (f : Fault) : Grows (giveUp c url f) :=
  fun p => .noting p (.skipped [] c url .failed (some f))

/-- The computation `m` takes nothing back, and `m'` ends like `m` or is aborted on its way, once `n`
events of the walk have happened. -/
structure Cuts (n : Nat) (m m' : Run α) (p : Progress) : Prop where
  grows : p.Precedes (m.outcome p).2
  stops : m'.outcome p = m.outcome p ∨ ∃ e q, Ends m' p (.error e) q ∧ e.IsAbort ∧
    n ≤ q.steps.length ∧ q.Precedes (m.outcome p).2

theorem Grows.cuts {m : Run α} (h : Grows m) (n : Nat) (p : Progress) : Cuts n m m p :=
  ⟨h p, .inl rfl⟩

theorem Cuts.bind {m m' : Run α} {f f' : α → Run β} (h : Cuts n m m' p)
    (hf : ∀ a q, Cuts n (f a) (f' a) q) : Cuts n (m >>= f) (m' >>= f') p := by
  have later : (m.outcome p).2.Precedes ((m >>= f).outcome p).2 := by
    rw [outcome_bind]
    rcases m.outcome p with ⟨_ | a, r⟩
    · exact .refl r
    · exact (hf a r).grows
  refine ⟨h.grows.trans later, ?_⟩
  rcases h.stops with hsame | ⟨e, q, hends, habort, hn, hq⟩
  · rw [outcome_bind, outcome_bind, hsame]
    rcases hm : m.outcome p with ⟨_ | a, r⟩
    · exact .inl rfl
    · refine (hf a r).stops.imp id fun ⟨e, q, hends, hrest⟩ => ⟨e, q, ?_, hrest⟩
      exact ends_bind_error.2 (.inr ⟨a, r, hsame.trans hm, hends⟩)
  · exact .inr ⟨e, q, ends_bind_error.2 (.inl hends), habort, hn, hq.trans later⟩

theorem cuts_checkAborted (s : Setup) (n : Nat) (p : Progress) :
    Cuts n (checkAborted (s.abortingAfter none)) (checkAborted (s.abortingAfter (some n))) p := by
  have hfull : (checkAborted (s.abortingAfter none)).outcome p = (.ok (), p) := by
    rw [outcome_checkAborted]
    rfl
  refine ⟨by rw [hfull]; exact .refl p, ?_⟩
  by_cases hn : n ≤ p.steps.length
  · refine .inr ⟨.aborted, p, ?_, .inl rfl, hn, by rw [hfull]; exact .refl p⟩
    rw [Ends, outcome_checkAborted]
    simp [isAborted, Setup.abortingAfter, hn]
  · refine .inl ?_
    rw [hfull, outcome_checkAborted]
    simp [isAborted, Setup.abortingAfter, hn]

/-- The run that is left alone waits for every page; the other one may stop in front of it. -/
theorem cuts_await (s : Setup) (n : Nat) (url : Text) (p : Progress) :
    Cuts n (await (s.abortingAfter none) url) (await (s.abortingAfter (some n)) url) p := by
  have hstays : ((await (s.abortingAfter none) url).outcome p).2 = p := by rw [outcome_await]
  refine ⟨by rw [hstays]; exact .refl p, ?_⟩
  rw [hstays]
  cases ha : p.ledger.answer? url with
  | none =>
    refine .inl ?_
    rw [outcome_await, outcome_await, ha]
  | some a =>
    have hwaits : stopsWaiting (s.abortingAfter none) p url a = false := rfl
    by_cases hstops : stopsWaiting (s.abortingAfter (some n)) p url a
    · have hn : n ≤ p.steps.length := by
        simpa [isAborted, Setup.abortingAfter] using (Bool.and_eq_true_iff.1 hstops).1
      refine .inr ⟨.abortedWaiting, p, ?_, .inr rfl, hn, .refl p⟩
      rw [Ends, outcome_await, ha]
      simp only [hstops, if_true]
    · refine .inl ?_
      rw [outcome_await, outcome_await, ha]
      simp only [hwaits, hstops, Bool.false_eq_true, if_false]

variable {descend descend' : Context → List Node → Run (List Node)}

theorem cuts_visit (hd : ∀ c ns p, Cuts n (descend c ns) (descend' c ns) p) (url : Text)
    (ns : List Node) (p : Progress) :
    Cuts n (visit (s.abortingAfter none) descend c url ns)
      (visit (s.abortingAfter (some n)) descend' c url ns) p := by
  unfold visit
  dsimp only
  split
  · exact hd _ _ p
  · rw [reportLeft_abortingAfter, reportLeft_abortingAfter]
    exact ((grows_reportLeft s _ _).cuts n p).bind fun _ q => (grows_pure _).cuts n q

theorem cuts_inline (hd : ∀ c ns p, Cuts n (descend c ns) (descend' c ns) p) (m : Node)
    (o : Order) :
    Cuts n (inline (s.abortingAfter none) descend c m o)
      (inline (s.abortingAfter (some n)) descend' c m o) p := by
  rw [inline_eq, inline_eq]
  refine (cuts_await s n o.2 p).bind fun page q => ?_
  cases page with
  | error f => exact (grows_giveUp c o.2 f).cuts n q
  | ok text =>
    dsimp only
    cases Sheet.parse text (some o.2) with
    | error f => exact (grows_giveUp c o.2 _).cuts n q
    | ok sheet =>
      have hchildren : Grows (if s.options.anchorReferences
          then ofUrl (Node.anchorAll o.2 sheet.children) else pure sheet.children) := by
        split
        · exact grows_ofUrl _
        · exact grows_pure _
      refine (hchildren.cuts n q).bind fun children r => ?_
      refine (cuts_visit hd o.2 children r).bind fun content t => ?_
      exact ((grows_tell _).bind fun _ => grows_pure _).cuts n t

theorem cuts_editNodes {ns : List Node} {replace replace' : Context → Node → Order → Run Edit}
    (hn : ∀ m ∈ ns, ∀ o p, Cuts n (editNode (s.abortingAfter none) replace c m o)
      (editNode (s.abortingAfter (some n)) replace' c m o) p) (os : List (Option Order)) :
    Cuts n (editNodes (s.abortingAfter none) replace c ns os)
      (editNodes (s.abortingAfter (some n)) replace' c ns os) p := by
  induction ns generalizing os p with
  | nil =>
    rw [editNodes, editNodes]
    · exact (grows_pure []).cuts n p
    all_goals simp
  | cons m ns ih =>
    cases os with
    | nil =>
      rw [editNodes, editNodes]
      · exact (grows_pure []).cuts n p
      all_goals simp
    | cons o os =>
      rw [editNodes, editNodes]
      refine (hn m (by simp) o p).bind fun e q => ?_
      exact (ih (fun k hk => hn k (by simp [hk])) os).bind fun es q => (grows_pure _).cuts n q

theorem cuts_siblings {ns : List Node} {replace replace' : Context → Node → Order → Run Edit}
    (hn : ∀ m ∈ ns, ∀ o p, Cuts n (editNode (s.abortingAfter none) replace c m o)
      (editNode (s.abortingAfter (some n)) replace' c m o) p) (p : Progress) :
    Cuts n (do
        checkAborted (s.abortingAfter none)
        let os ← orders (s.abortingAfter none) c ns
        editNodes (s.abortingAfter none) replace c ns os)
      (do
        checkAborted (s.abortingAfter (some n))
        let os ← orders (s.abortingAfter (some n)) c ns
        editNodes (s.abortingAfter (some n)) replace' c ns os) p := by
  rw [orders_abortingAfter, orders_abortingAfter]
  refine (cuts_checkAborted s n p).bind fun _ q => ?_
  exact ((grows_orders s c ns).cuts n q).bind fun os r => cuts_editNodes hn os

theorem cuts_editNode {replace replace' : Context → Node → Order → Run Edit}
    (hr : ∀ m o p, Cuts n (replace c m o) (replace' c m o) p) (m : Node) (o : Option Order) :
    Cuts n (editNode (s.abortingAfter none) replace c m o)
      (editNode (s.abortingAfter (some n)) replace' c m o) p := by
  induction m using Node.induction generalizing o p with
  | leaf m hm =>
    cases o with
    | none =>
      rw [editNode_leaf hm, editNode_leaf hm]
      exact (grows_pure _).cuts n p
    | some o =>
      rw [editNode_order, editNode_order]
      exact hr m o p
  | block before h children after ih =>
    cases o with
    | none =>
      rw [editNode_block, editNode_block]
      split
      · have hinner := (cuts_siblings (fun k hk o p => ih k hk o) p).bind fun es q =>
          (grows_pure (Edit.within es)).cuts n q
        simpa only [bind_assoc] using hinner
      · exact (grows_pure _).cuts n p
    | some o =>
      rw [editNode_order, editNode_order]
      exact hr _ o p

/-- The walk over the nodes of a sheet, and all walks inside it, are cut at the same place. -/
theorem cuts_edits (s : Setup) (n fuel : Nat) (c : Context) (ns : List Node) (p : Progress) :
    Cuts n (edits (s.abortingAfter none) fuel c ns) (edits (s.abortingAfter (some n)) fuel c ns)
      p := by
  induction fuel generalizing c ns p with
  | zero =>
    have hdeep : Grows (halt .tooDeep : Run (List Edit)) := fun p => .refl p
    exact hdeep.cuts n p
  | succ fuel ih =>
    rw [edits, edits]
    refine cuts_siblings (fun m _ o p => cuts_editNode (fun m o p => ?_) m o) p
    refine cuts_inline (fun c ns p => ?_) m o
    exact (ih c ns p).bind fun es q => (grows_pure _).cuts n q

/-- A walk that is aborted before it starts does nothing. -/
theorem ends_edits_of_abortingAfter_zero (s : Setup) (fuel : Nat) (c : Context) (ns : List Node)
    (p : Progress) :
    Ends (edits (s.abortingAfter (some 0)) (fuel + 1) c ns) p (.error .aborted) p := by
  rw [edits]
  refine ends_bind_error.2 (.inl ?_)
  rw [Ends, outcome_checkAborted]
  rfl

end Run

/-- A run that is aborted once `n` events of the walk have happened leaves the same as the run that
nobody aborts: the same edits or the same fault, after the same events, findings and requests. Or it
ends without a result because it was aborted. Then at least `n` events of the walk have happened, and
these, the findings and the requests are a prefix of those of the other run. A run that is aborted
before it starts does nothing. All this holds whichever pages are late. -/
theorem resolve_whole_or_aborted (s : Setup) (sheet : Sheet) (n : Nat) :
    let full := sheet.resolve (s.abortingAfter none)
    let cut := sheet.resolve (s.abortingAfter (some n))
    (cut = full ∨
      (∃ e, cut.edits = .error e ∧ e.IsAbort) ∧ n ≤ cut.progress.steps.length ∧
        cut.progress.steps <+: full.progress.steps ∧
        cut.progress.ledger.requested <+: full.progress.ledger.requested ∧
        cut.progress.diagnostics <+: full.progress.diagnostics) ∧
    (n = 0 → cut.edits = .error .aborted ∧ cut.progress.steps = [] ∧
      cut.progress.ledger.requested = []) := by
  intro full cut
  let start := Context.atStart s.options sheet.origin
  have hcut : Run.Ends (Run.edits (s.abortingAfter (some n)) (s.network.size + 2) start
      sheet.children) {} cut.edits cut.progress := Sheet.ends_of_resolve rfl
  constructor
  · rcases (Run.cuts_edits s n (s.network.size + 2) start sheet.children {}).stops with
      hsame | ⟨e, q, hends, habort, hn, hq⟩
    · exact .inl (congrArg (fun x => Outcome.mk x.1 x.2) hsame)
    · obtain ⟨hedits, hprogress⟩ := Prod.mk.inj (hcut.symm.trans hends)
      rw [hprogress]
      exact .inr ⟨⟨e, hedits, habort⟩, hn, hq.steps, hq.requested, hq.diagnostics⟩
  · rintro rfl
    have hzero := Run.ends_edits_of_abortingAfter_zero s (s.network.size + 1) start sheet.children {}
    obtain ⟨hedits, hprogress⟩ := Prod.mk.inj (hcut.symm.trans hzero)
    rw [hprogress]
    exact ⟨hedits, rfl, rfl⟩

/-- A run that is aborted after its first event still asks for the pages of the same list. It stops
inside the first page, or in front of it if that is late, and an abort after the last event comes too
late. -/
example :
    let pages : List (Text × Page) :=
      [("https://h/a.css".toList, .body "@import 'c.css';".toList),
        ("https://h/b.css".toList, .body "b\x7b\x7d".toList)]
    let s : Setup := { options := { recursive := true }, network := .ofPages [] pages }
    let slow : Setup := { s with late := fun _ => true }
    let sheet : Sheet :=
      ⟨[.statement [] ⟨"import".toList, "'d.css'".toList, [' '], []⟩ true,
        .statement [] ⟨"import".toList, "'https://h/a.css'".toList, [' '], []⟩ true,
        .statement [] ⟨"import".toList, "'https://h/b.css'".toList, [' '], []⟩ true], [], none⟩
    let full := sheet.resolve (s.abortingAfter none)
    let inside := sheet.resolve (s.abortingAfter (some 1))
    let waiting := sheet.resolve (slow.abortingAfter (some 1))
    let after := sheet.resolve (s.abortingAfter (some 4))
    inside.edits.map (fun _ => ()) = .error .aborted ∧ inside.progress.steps.length = 1 ∧
      inside.progress.ledger.requested = ["https://h/a.css".toList, "https://h/b.css".toList] ∧
      waiting.edits.map (fun _ => ()) = .error .abortedWaiting ∧
      waiting.progress.steps = inside.progress.steps ∧
      waiting.progress.ledger.requested = inside.progress.ledger.requested ∧
      after.edits.map (fun _ => ()) = .ok () ∧ after.progress.steps = full.progress.steps ∧
      full.progress.steps.length = 4 := by
  decide +kernel

end StyleSplice
