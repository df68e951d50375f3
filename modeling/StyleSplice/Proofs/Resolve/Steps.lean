import StyleSplice.Proofs.Fetch.Ledger
import StyleSplice.Proofs.Resolve.OnePass

/-!
# The steps of a run

What the parts of a run do, each said once: the result that a computation ends with, and the
progress at its end. Proofs about whole runs take a run apart with these and open no definition.
-/

namespace StyleSplice

theorem map_eq_ok_iff {ε α β : Type} {x : Except ε α} {f : α → β} {b : β} :
    x.map f = .ok b ↔ ∃ a, x = .ok a ∧ f a = b := by
  cases x <;> simp [Except.map]

theorem exists_eq_ok_iff {ε α : Type} {x : Except ε α} : (∃ a, x = .ok a) ↔ x.isOk = true := by
  cases x <;> simp [Except.isOk, Except.toBool]

theorem map_eq_error_iff {ε α β : Type} {x : Except ε α} {f : α → β} {e : ε} :
    x.map f = .error e ↔ x = .error e := by
  cases x <;> simp [Except.map]

/-- The progress after findings and events of the walk. -/
def Progress.noting (p : Progress) (y : Yield) : Progress :=
  { p with trace := p.trace ++ y.events, diagnostics := p.diagnostics ++ y.findings }

@[simp] theorem Progress.ledger_noting (p : Progress) (y : Yield) :
    (p.noting y).ledger = p.ledger := rfl

@[simp] theorem Progress.noting_empty (p : Progress) : p.noting {} = p := by
  simp [Progress.noting]

theorem Progress.noting_noting (p : Progress) (y z : Yield) :
    (p.noting y).noting z = p.noting (y.append z) := by
  simp [Progress.noting, Yield.append]

/-- What is said about a node before any page is waited for, and the page that is asked for. -/
def Plan.early (c : Context) : Plan → Yield
  | .nothing => {}
  | .localTarget target => .skipped [] c target .localTarget
  | .cycle url => .skipped [] c url .cycle (some (.cycle url c.stack))
  | .fetch _ url => { asked := [url] }

/-- The order that comes of a plan. -/
def Plan.order? : Plan → Option Run.Order
  | .fetch d url => some (d, url)
  | _ => none

namespace Run

variable {α β : Type} {s : Setup} {c : Context} {p q : Progress}

/-- The result of a computation that starts at `p`, and the progress at its end. -/
def outcome (m : Run α) (p : Progress) : Except Halt α × Progress := m.run.run p

/-- A computation that starts at `p` ends with the result `x` at `q`. -/
def Ends (m : Run α) (p : Progress) (x : Except Halt α) (q : Progress) : Prop :=
  m.outcome p = (x, q)

theorem outcome_bind (m : Run α) (f : α → Run β) (p : Progress) :
    (m >>= f).outcome p =
      match m.outcome p with
      | (.ok a, r) => (f a).outcome r
      | (.error h, r) => (.error h, r) := by
  unfold outcome
  simp only [ExceptT.run_bind, StateT.run_bind]
  change (match m.run.run p with | (x, r) => _) = _
  rcases m.run.run p with ⟨_ | a, r⟩ <;> rfl

@[simp] theorem outcome_pure (a : α) (p : Progress) :
    outcome (pure a) p = (.ok a, p) := rfl

@[simp] theorem outcome_halt (h : Halt) (p : Progress) :
    outcome (halt h : Run α) p = (.error h, p) := rfl

@[simp] theorem outcome_get (p : Progress) : outcome (get : Run Progress) p = (.ok p, p) := rfl

theorem ends_bind_ok {m : Run α} {f : α → Run β} {b : β} :
    Ends (m >>= f) p (.ok b) q ↔ ∃ a r, Ends m p (.ok a) r ∧ Ends (f a) r (.ok b) q := by
  simp only [Ends, outcome_bind]
  rcases m.outcome p with ⟨_ | a, r⟩ <;> simp [and_assoc]

theorem ends_bind_error {m : Run α} {f : α → Run β} {h : Halt} :
    Ends (m >>= f) p (.error h) q ↔
      Ends m p (.error h) q ∨ ∃ a r, Ends m p (.ok a) r ∧ Ends (f a) r (.error h) q := by
  simp only [Ends, outcome_bind]
  rcases m.outcome p with ⟨_ | a, r⟩ <;> simp [and_assoc]

theorem ends_pure {a : α} {x : Except Halt α} : Ends (pure a) p x q ↔ x = .ok a ∧ q = p := by
  simp [Ends, eq_comm]

theorem ends_halt {h : Halt} {x : Except Halt α} :
    Ends (halt h) p x q ↔ x = .error h ∧ q = p := by
  simp [Ends, eq_comm]

theorem ends_tell {e : Event} {x : Except Halt Unit} :
    Ends (tell e) p x q ↔ x = .ok () ∧ q = p.noting { events := [e] } := by
  change (Except.ok (), { p with trace := p.trace ++ [e] }) = (x, q) ↔ _
  simp [Progress.noting, eq_comm]

/-- A warning and the event that says that the import stays in place. -/
theorem outcome_warn_skip (f : Fault) (url : Text) (reason : SkipReason) (c : Context)
    (p : Progress) :
    outcome (do warn f url c; skip url c reason) p =
      (.ok (), p.noting (.skipped [] c url reason (some f))) := rfl

theorem outcome_skip (target : Text) (reason : SkipReason) (c : Context) (p : Progress) :
    outcome (skip target c reason) p = (.ok (), p.noting (.skipped [] c target reason)) := by
  change (Except.ok (), { p with trace := p.trace ++ [_] }) = _
  simp [Progress.noting, Yield.skipped]

theorem outcome_checkAborted (s : Setup) (p : Progress) :
    (checkAborted s).outcome p = (if isAborted s p then .error .aborted else .ok (), p) := by
  unfold checkAborted
  simp only [outcome_bind, outcome_get]
  split <;> rfl

/-- Whether the run has been aborted is only looked up. -/
theorem progress_of_checkAborted {x : Except Halt Unit} (h : Ends (checkAborted s) p x q) :
    q = p := by
  rw [Ends, outcome_checkAborted] at h
  exact (congrArg Prod.snd h).symm

theorem outcome_submit (s : Setup) (url : Text) (p : Progress) :
    (submit s url).outcome p = match p.ledger.request s.network url with
      | none => (.error .noRequest, p)
      | some (ledger, events) => (.ok (), { p with ledger, trace := p.trace ++ events }) := by
  unfold submit
  simp only [outcome_bind, outcome_get]
  cases p.ledger.request s.network url with
  | none => rfl
  | some x => rfl

theorem outcome_await (s : Setup) (url : Text) (p : Progress) :
    (await s url).outcome p = (match p.ledger.answer? url with
      | none => .error .noRequest
      | some a =>
        if stopsWaiting s p url a then .error .abortedWaiting
        else
          match a with
          | .body text => .ok (.ok text)
          | .failure f => .ok (.error f)
          | .crash message => .error (.crashed message)
          | .silence => .error .stalled, p) := by
  unfold await
  simp only [outcome_bind, outcome_get]
  cases p.ledger.answer? url with
  | none => rfl
  | some a =>
    dsimp only
    split
    · rfl
    · cases a <;> rfl

/-- An order is the plan for the node, put into effect. -/
theorem order_eq (s : Setup) (c : Context) (n : Node) :
    order s c n = (match Plan.ofNode s c n with
      | .error f => halt (.badUrl f)
      | .ok .nothing => pure none
      | .ok (.localTarget target) => do
        skip target c .localTarget
        pure none
      | .ok (.cycle url) => do
        warn (.cycle url c.stack) url c
        skip url c .cycle
        pure none
      | .ok (.fetch d url) => do
        submit s url
        pure (some (d, url))) := by
  unfold order Plan.ofNode
  cases Import.ofNode? n c.origin with
  | none => rfl
  | some d =>
    simp only
    cases Target.classify d.target c.origin s.options.schemeText with
    | error f => rfl
    | ok t =>
      cases t with
      | localPath path => simp [ofUrl]
      | remote url => by_cases h : c.visited url <;> simp [ofUrl, h]

/-- An order that fails has the fault of the plan. -/
theorem outcome_order_error {n : Node} {f : UrlFault} (h : Plan.ofNode s c n = .error f)
    (p : Progress) : (order s c n).outcome p = (.error (.badUrl f), p) := by
  rw [order_eq, h]
  rfl

/-- An order that asks for no page. -/
theorem outcome_order_of_none {n : Node} {plan : Plan} (h : Plan.ofNode s c n = .ok plan)
    (hn : plan.order? = none) (p : Progress) :
    (order s c n).outcome p = (.ok none, p.noting (plan.early c)) := by
  rw [order_eq, h]
  cases plan with
  | nothing => simp [Plan.early]
  | localTarget target =>
    simp only [outcome_bind, outcome_skip]
    rfl
  | cycle url => rfl
  | fetch d url => cases hn

theorem outcome_order_fetch {n : Node} {d : Import} {url : Text}
    (h : Plan.ofNode s c n = .ok (.fetch d url)) (p : Progress) :
    (order s c n).outcome p = match p.ledger.request s.network url with
      | none => (.error .noRequest, p)
      | some (ledger, events) =>
        (.ok (some (d, url)), { p with ledger, trace := p.trace ++ events }) := by
  rw [order_eq, h]
  simp only [outcome_bind, outcome_submit]
  cases p.ledger.request s.network url with
  | none => rfl
  | some x => rfl

/-- The report of one import that is left is what the one pass says of its target. -/
theorem outcome_reportLeft_cons (s : Setup) (c : Context) (d : Import) (n : Node)
    (rest : List (Import × Node)) (p : Progress) :
    (reportLeft s c ((d, n) :: rest)).outcome p =
      match Target.classify d.target c.origin s.options.schemeText with
      | .error f => (.error (.badUrl f), p)
      | .ok target => (reportLeft s c rest).outcome (p.noting (OnePass.remark s c target)) := by
  rw [reportLeft, outcome_bind]
  cases Target.classify d.target c.origin s.options.schemeText with
  | error f => rfl
  | ok target =>
    cases target with
    | localPath path => simp [ofUrl, OnePass.remark]
    | remote url =>
      by_cases hr : s.options.recursive
      · simp only [ofUrl, outcome_pure, hr, if_true, OnePass.remark]
        rw [← bind_assoc, outcome_bind, outcome_warn_skip]
      · simp [ofUrl, OnePass.remark, hr, outcome_bind, outcome_skip]

/-- Reporting the imports that are left says what the one pass says of them. -/
theorem outcome_reportLeft {found : List (Import × Node)} {y : Yield}
    (h : OnePass.remarks s c found = .ok y) (p : Progress) :
    (reportLeft s c found).outcome p = (.ok (), p.noting y) := by
  induction found generalizing y p with
  | nil =>
    cases h
    simp [reportLeft]
  | cons x rest ih =>
    obtain ⟨d, n⟩ := x
    rw [outcome_reportLeft_cons]
    rw [OnePass.remarks] at h
    cases ht : Target.classify d.target c.origin s.options.schemeText with
    | error f =>
      rw [ht] at h
      cases h
    | ok target =>
      rw [ht] at h
      obtain ⟨z, hz, rfl⟩ := map_eq_ok_iff.1 h
      rw [← Progress.noting_noting]
      exact ih hz _

/-- Reporting fails for the same fault as the one pass. -/
theorem outcome_reportLeft_error {found : List (Import × Node)} {f : UrlFault}
    (h : OnePass.remarks s c found = .error f) (p : Progress) :
    ((reportLeft s c found).outcome p).1 = .error (.badUrl f) := by
  induction found generalizing p with
  | nil => cases h
  | cons x rest ih =>
    obtain ⟨d, n⟩ := x
    rw [outcome_reportLeft_cons]
    rw [OnePass.remarks] at h
    cases ht : Target.classify d.target c.origin s.options.schemeText with
    | error f' =>
      rw [ht] at h
      cases h
      rfl
    | ok target =>
      rw [ht] at h
      exact ih (map_eq_error_iff.1 h) _

/-- What a run does with the nodes of a page: it walks over them, or it reports their imports. -/
def visit (s : Setup) (descend : Context → List Node → Run (List Node)) (c : Context) (url : Text)
    (children : List Node) : Run (List Node) :=
  let inner := c.descend url
  if c.canDescend then descend inner children
  else do
    reportLeft s inner (Import.findAll children inner.origin)
    pure children

/-- What a run does with the nodes of the page of an import. -/
def inlinePage (s : Setup) (descend : Context → List Node → Run (List Node)) (c : Context) (n : Node)
    (o : Order) (page : List Node) : Run Edit := do
  let children ←
    (if s.options.anchorReferences then ofUrl (Node.anchorAll o.2 page) else pure page)
  let content ← visit s descend c o.2 children
  let _ ← tell (.resolved o.2 c.depth o.1.media)
  pure (.splice (replacement o.1 n content))

theorem inline_eq (s : Setup) (descend : Context → List Node → Run (List Node)) (c : Context)
    (n : Node) (o : Order) : inline s descend c n o = (do
      match ← await s o.2 with
      | .error f => giveUp c o.2 f
      | .ok text =>
        match Sheet.parse text (some o.2) with
        | .error f => giveUp c o.2 (.ofSheet text f)
        | .ok sheet => inlinePage s descend c n o sheet.children) := by
  unfold inline inlinePage visit
  refine bind_congr fun answer => ?_
  cases answer with
  | error f => rfl
  | ok text =>
    dsimp only
    cases Sheet.parse text (some o.2) with
    | error f => rfl
    | ok sheet =>
      by_cases ha : s.options.anchorReferences <;> by_cases hc : c.canDescend <;> simp [ha, hc]

/-- Replacing an import, for a ledger that knows the page. -/
theorem outcome_inline {descend : Context → List Node → Run (List Node)} {n : Node} {d : Import}
    {url : Text} (h : p.ledger.answer? url = some (s.network.answer url)) :
    (inline s descend c n (d, url)).outcome p =
      if stopsWaiting s p url (s.network.answer url) then (.error .abortedWaiting, p)
      else
        match s.content url with
        | .error e => (.error e, p)
        | .ok (.error f) => (.ok .keep, p.noting (.skipped [] c url .failed (some f)))
        | .ok (.ok children) => outcome (do
            let content ← visit s descend c url children
            tell (.resolved url c.depth d.media)
            pure (Edit.splice (replacement d n content))) p := by
  unfold Setup.content inline
  simp only [outcome_bind (await s url), outcome_await, h]
  by_cases hw : stopsWaiting s p url (s.network.answer url)
  · simp only [hw, if_true]
  simp only [hw, Bool.false_eq_true, if_false]
  cases s.network.answer url with
  | failure f => rfl
  | crash message => rfl
  | silence => rfl
  | body text =>
    dsimp only
    cases Sheet.parse text (some url) with
    | error f => rfl
    | ok sheet =>
      dsimp only
      by_cases ho : s.options.anchorReferences <;> by_cases hd : c.canDescend
      all_goals simp only [ho, if_true, if_false, visit, hd, Bool.false_eq_true, bind_assoc, pure_bind]
      · cases Node.anchorAll url sheet.children <;> rfl
      · cases Node.anchorAll url sheet.children <;> rfl

end Run

end StyleSplice
