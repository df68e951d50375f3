import StyleSplice.Proofs.Resolve.Lockstep

/-!
# Every import that stays is reported

An import that a run leaves in place for a fault of its page, a cycle or the limit of depth gets a
finding and an event, in this order and with nothing in between, so findings and events of this kind
go together one by one. An import that stays because its target is local, or because the run does
not follow imports of fetched pages at all, gets an event only.
-/

namespace StyleSplice

/-- The rules of the findings that go with a reason. -/
def SkipReason.rules : SkipReason → List String
  | .localTarget | .notRecursive => []
  | .cycle => ["cycle_detected"]
  | .failed => ["transport_failure", "parse_failure"]
  | .depthExceeded => ["depth_exceeded"]

/-- The reason with a name. -/
def SkipReason.ofText? (t : Text) : Option SkipReason :=
  [.localTarget, .notRecursive, .depthExceeded, .cycle, .failed].find? fun r => r.text.toList == t

@[simp] theorem SkipReason.ofText?_text (r : SkipReason) : ofText? r.text.toList = some r := by
  cases r <;> decide

/-- The reason that an event gives for an import that stays. -/
def Event.reason? : Event → Option SkipReason
  | .skipped _ _ reason => SkipReason.ofText? reason
  | _ => none

/-- Whether a finding goes with the event. -/
def Event.isReported (e : Event) : Bool := (e.reason?.map fun r => !r.rules.isEmpty).getD false

@[simp] theorem Event.reason?_skipped (target : Text) (depth : Int) (r : SkipReason) :
    reason? (.skipped target depth r.text.toList) = some r := SkipReason.ofText?_text r

@[simp] theorem Event.isReported_skipped (target : Text) (depth : Int) (r : SkipReason) :
    isReported (.skipped target depth r.text.toList) = !r.rules.isEmpty := by simp [isReported]

theorem Event.isReported_of_not_isStep {e : Event} (h : e.isStep = false) :
    e.isReported = false := by
  cases e with
  | skipped => cases h
  | _ => rfl

/-- The finding is a warning about the import that the event tells of, under a rule for the reason
that the event gives. -/
inductive Diagnostic.Reports : Event → Diagnostic → Prop
  | skipped {target message : Text} {depth : Int} {reason : SkipReason} {rule : String}
    (rule_mem : rule ∈ reason.rules) :
    Reports (.skipped target depth reason.text.toList) ⟨rule, .warning, message, some target, depth⟩

/-- The findings go with the events that call for one, one by one and in order; every event about
what stays gives one of the reasons. -/
structure Reported (events : List Event) (findings : List Diagnostic) : Prop where
  paired : List.Forall₂ Diagnostic.Reports (events.filter Event.isReported) findings
  reasons : ∀ target depth reason, .skipped target depth reason ∈ events →
    ∃ r : SkipReason, reason = r.text.toList

namespace Reported

variable {es es' : List Event} {xs xs' : List Diagnostic}

theorem nil : Reported [] [] := ⟨.nil, by simp⟩

theorem append (h : Reported es xs) (h' : Reported es' xs') :
    Reported (es ++ es') (xs ++ xs') where
  paired := by
    rw [List.filter_append]
    exact List.rel_append h.paired h'.paired
  reasons target depth reason hmem :=
    (List.mem_append.1 hmem).elim (h.reasons target depth reason) (h'.reasons target depth reason)

/-- Events that do not belong to the walk need no finding. -/
theorem of_not_isStep (h : ∀ e ∈ es, e.isStep = false) : Reported es [] where
  paired := by
    rw [List.filter_eq_nil_iff.2 fun e he => by simp [Event.isReported_of_not_isStep (h e he)]]
    exact .nil
  reasons target depth reason hmem := by cases h _ hmem

theorem resolved (url media : Text) (depth : Int) : Reported [.resolved url depth media] [] :=
  ⟨.nil, by simp⟩

/-- An import that stays for a reason without rules needs no finding. -/
theorem of_rules_eq_nil (nodes : List Node) (c : Context) (target : Text) {reason : SkipReason}
    (h : reason.rules = []) :
    Reported (Yield.skipped nodes c target reason).events
      (Yield.skipped nodes c target reason).findings := by
  refine ⟨?_, fun target depth text hmem => ⟨reason, ?_⟩⟩
  · simp [Yield.skipped, h]
  · simp only [Yield.skipped, List.mem_singleton, Event.skipped.injEq] at hmem
    exact hmem.2.2

/-- An import that stays because of a fault gets a finding under the rule of the fault. -/
theorem of_rule_mem (nodes : List Node) (c : Context) (target : Text) {reason : SkipReason}
    {f : Fault} (h : f.rule ∈ reason.rules) :
    Reported (Yield.skipped nodes c target reason (some f)).events
      (Yield.skipped nodes c target reason (some f)).findings := by
  have hreported : Event.isReported (.skipped target c.depth reason.text.toList) = true := by
    simp [List.ne_nil_of_mem h]
  refine ⟨?_, fun target depth text hmem => ⟨reason, ?_⟩⟩
  · change List.Forall₂ _ (List.filter _ [_]) [_]
    rw [List.filter_cons_of_pos hreported]
    exact .cons (.skipped h) .nil
  · simp only [Yield.skipped, List.mem_singleton, Event.skipped.injEq] at hmem
    exact hmem.2.2

end Reported

/-- Whatever keeps a page from being had is a fault of the transport. -/
def Network.FailsInTransport (net : Network) : Prop :=
  ∀ url f, net.answer url = .failure f → f.isTransport = true

theorem Network.failsInTransport_ofPages (headers : Headers) (pages : List (Text × Page)) :
    (ofPages headers pages).FailsInTransport := by
  intro url f h
  rcases answer_ofPages headers pages url with ⟨page, -, hpage⟩ | hnone
  · rw [h] at hpage
    cases page <;> cases hpage <;> rfl
  · rw [h] at hnone
    cases hnone
    rfl

theorem Fault.rule_of_isTransport {f : Fault} (h : f.isTransport = true) :
    f.rule = "transport_failure" := by
  cases f <;> first | rfl | cases h

/-- A page that cannot be had or read breaks one of two rules. -/
theorem Setup.rule_of_content {s : Setup} (hs : s.network.FailsInTransport) {url : Text}
    {f : Fault} (h : s.content url = .ok (.error f)) : f.rule ∈ SkipReason.rules .failed := by
  unfold content at h
  split at h
  · rename_i g ha
    cases h
    rw [Fault.rule_of_isTransport (hs url f ha)]
    exact List.mem_cons_self
  · cases h
  · cases h
  · split at h
    · cases h
      exact List.mem_cons_of_mem _ List.mem_cons_self
    · split at h
      · split at h <;> cases h
      · cases h

namespace Run

variable {s : Setup} {c : Context} {y : Yield}

theorem Told.reported (hs : s.network.FailsInTransport) (h : Told s c y) :
    Reported y.events y.findings := by
  cases h with
  | @early n plan plan_eq idle =>
    cases plan with
    | nothing => exact .nil
    | localTarget target => exact .of_rules_eq_nil [] c target rfl
    | cycle url => exact .of_rule_mem [] c url List.mem_cons_self
    | fetch d url => cases idle
  | failed content => exact .of_rule_mem [] c _ (Setup.rule_of_content hs content)
  | resolved url media => exact .resolved url media c.depth

/-- A remark on an import in a page that is not walked over is reported if there is a limit. -/
theorem reported_remark (s : Setup) (c : Context) (target : Target) :
    Reported (OnePass.remark s c target).events (OnePass.remark s c target).findings := by
  cases target with
  | localPath path => exact .nil
  | remote url =>
    unfold OnePass.remark
    dsimp only
    split
    · exact .of_rule_mem [] c url List.mem_cons_self
    · exact .of_rules_eq_nil [] c url rfl

/-- Requests are no matter of the walk, and everything else that is said is reported. -/
theorem keeps_reported (hs : s.network.FailsInTransport) :
    Keeps s fun p => p.ledger.Honest s.network ∧ Reported p.trace p.diagnostics where
  honest h := h.1
  request h hl hsteps := ⟨hl, by simpa [Progress.asking] using h.2.append (.of_not_isStep hsteps)⟩
  told h hy := ⟨h.1, h.2.append (hy.reported hs)⟩
  remark {c p target} h := ⟨h.1, h.2.append (reported_remark s c target)⟩

end Run

/-- In every run, however it ends, the findings go one by one with the events about imports that
stay for a fault of the page, a cycle or the limit of depth: each is a warning with the target and
the depth of its event, under a rule for the reason of the event. No other event has a finding. -/
theorem resolve_reports_unresolved {s : Setup} (hs : s.network.FailsInTransport) (sheet : Sheet) :
    Reported (sheet.resolve s).progress.trace (sheet.resolve s).progress.diagnostics :=
  (sheet.keeps_resolve (Run.keeps_reported hs) ⟨Ledger.honest_empty _, .nil⟩).2

/-- A page that imports itself, one that is no sheet, one that is missing, and one whose imports are
too deep; an import with a local target stays without a finding. -/
theorem resolve_reports_unresolved_each :
    let pages : List (Text × Page) :=
      [("https://h/a.css".toList, .body "@import 'a.css';@import 'b.css';@import 'bad.css'".toList),
        ("https://h/b.css".toList, .body "@import 'c.css';".toList),
        ("https://h/bad.css".toList, .body "\x7d".toList)]
    let s : Setup :=
      { options := { recursive := true, maxDepth := some 1 }, network := .ofPages [] pages }
    let sheet : Sheet :=
      ⟨[.statement [] ⟨"import".toList, "'https://h/a.css'".toList, [' '], []⟩ true,
        .statement [] ⟨"import".toList, "'https://h/no.css'".toList, [' '], []⟩ true,
        .statement [] ⟨"import".toList, "'d.css'".toList, [' '], []⟩ true], [], none⟩
    s.network.FailsInTransport ∧
      Reported (sheet.resolve s).progress.trace (sheet.resolve s).progress.diagnostics ∧
      (sheet.resolve s).progress.diagnostics.map (fun x => (x.rule, x.depth)) =
        [("cycle_detected", 1), ("depth_exceeded", 2), ("parse_failure", 1),
          ("transport_failure", 0)] := by
  intro pages s sheet
  have hs : s.network.FailsInTransport := Network.failsInTransport_ofPages [] pages
  exact ⟨hs, resolve_reports_unresolved hs sheet, by decide +kernel⟩

end StyleSplice
