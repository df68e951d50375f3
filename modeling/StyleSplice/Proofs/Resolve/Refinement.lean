import Mathlib.Data.List.Forall2
import Mathlib.Tactic.Tauto
import StyleSplice.Proofs.Resolve.Steps
import StyleSplice.Proofs.Sheet.Items

/-!
# A run and the one pass

A run asks for all pages among some siblings before it waits for the first, and keeps every page
that it has had. The one pass does neither. What a run adds to its findings, its events and its
requests is nevertheless what the pass says, in another order, and the nodes are the same. The
simulation goes over the recursion of the run; in between the two phases, `early` says what the
first of them has already added.
-/

namespace StyleSplice

/-- Two yields say the same, in whatever order. -/
structure Yield.Same (y z : Yield) : Prop where
  findings : ∀ x, y.findings.count x = z.findings.count x
  events : ∀ e, y.events.count e = z.events.count e
  asked : ∀ u, u ∈ y.asked ↔ u ∈ z.asked

/-- What has been added to the progress `p` when it is `q`. The order is left open, and only events
of the walk count. -/
structure Progress.Adds (p : Progress) (y : Yield) (q : Progress) : Prop where
  findings : ∀ x, q.diagnostics.count x = p.diagnostics.count x + y.findings.count x
  events : ∀ e : Event, e.isStep → q.trace.count e = p.trace.count e + y.events.count e
  asked : ∀ u, u ∈ q.ledger.requested ↔ u ∈ p.ledger.requested ∨ u ∈ y.asked

namespace Progress

variable {p q r : Progress} {y z : Yield}

theorem Adds.refl (p : Progress) : p.Adds {} p := ⟨by simp, by simp, by simp⟩

theorem Adds.trans (h₁ : p.Adds y q) (h₂ : q.Adds z r) : p.Adds (y.append z) r where
  findings x := by
    have := h₁.findings x
    have := h₂.findings x
    simp only [Yield.append, List.count_append]
    omega
  events e he := by
    have := h₁.events e he
    have := h₂.events e he
    simp only [Yield.append, List.count_append]
    omega
  asked u := by
    rw [h₂.asked, h₁.asked, Yield.append, List.mem_append, or_assoc]

theorem Adds.congr (h : p.Adds y q) (hs : z.Same y) : p.Adds z q where
  findings x := by rw [h.findings, hs.findings]
  events e he := by rw [h.events e he, hs.events]
  asked u := by rw [h.asked, hs.asked]

/-- Everything that was added is found at the end. -/
theorem Adds.findings_subset (h : p.Adds y q) : y.findings ⊆ q.diagnostics := by
  intro x hx
  have hcount := h.findings x
  have hpos := List.count_pos_iff.2 hx
  exact List.count_pos_iff.1 (by omega)

/-- Findings and events of the walk are added as they are. -/
theorem adds_noting (p : Progress) (h : y.asked = []) : p.Adds y (p.noting y) where
  findings x := by simp [noting]
  events e he := by simp [noting]
  asked u := by simp [h]

/-- What is told of replacements is the same in both. -/
theorem Adds.told (h : Adds {} y q) : (y.events.filter fun e => e.kind == .resolved).Perm
    (q.trace.filter fun e => e.kind == .resolved) := by
  rw [List.perm_iff_count]
  intro e
  by_cases he : e.kind = .resolved
  · have hstep : e.isStep := by cases e <;> first | rfl | cases he
    rw [List.count_filter (by simpa using he), List.count_filter (by simpa using he)]
    simpa using (h.events e hstep).symm
  · rw [List.count_eq_zero.2 (by simp [he]), List.count_eq_zero.2 (by simp [he])]

end Progress

namespace Yield

variable {y z w : Yield}

theorem same_of_eq (hf : y.findings = z.findings) (he : y.events = z.events)
    (ha : y.asked = z.asked) : y.Same z :=
  ⟨fun x => by rw [hf], fun e => by rw [he], fun u => by rw [ha]⟩

/-- The early parts of two yields may go in front of both late parts. -/
theorem Same.interleave {y₁ y₂ e₁ e₂ l₁ l₂ : Yield} (h₁ : y₁.Same (e₁.append l₁))
    (h₂ : y₂.Same (e₂.append l₂)) :
    (y₁.append y₂).Same ((e₁.append e₂).append (l₁.append l₂)) where
  findings x := by
    have := h₁.findings x
    have := h₂.findings x
    simp only [append, List.count_append] at *
    omega
  events e := by
    have := h₁.events e
    have := h₂.events e
    simp only [append, List.count_append] at *
    omega
  asked u := by
    have := h₁.asked u
    have := h₂.asked u
    simp only [append, List.mem_append] at *
    tauto

end Yield

/-- The plans for a list of nodes. -/
def PlansOf (s : Setup) (c : Context) : List Node → List Plan → Prop :=
  List.Forall₂ fun n plan => Plan.ofNode s c n = .ok plan

/-- What is said about a list of nodes before any page is waited for. -/
def Plan.earlyAll (c : Context) (plans : List Plan) : Yield :=
  plans.foldr (fun plan y => (plan.early c).append y) {}

namespace OnePass

variable {s : Setup} {enter : Context → List Node → Except Halt Yield} {c : Context}

theorem node_of_leaf {n : Node} (hn : n.items = [.leaf n]) :
    node s enter c n = match Plan.ofNode s c n with
      | .error f => .error (.badUrl f)
      | .ok (.fetch d url) => replace s enter c n d url
      | .ok plan => .ok { plan.early c with nodes := [n] } := by
  cases n with
  | block before h children after => simp at hn
  | _ =>
    rw [node]
    · cases Plan.ofNode s c _ with
      | error f => rfl
      | ok plan => cases plan <;> rfl
    · intros
      contradiction

theorem node_block (before : Text) (h : Head) (children : List Node) (after : Text) :
    node s enter c (.block before h children after) =
      (nodes s enter c children).map fun y =>
        { y with nodes := [.block before h y.nodes after] } := by rw [node]

theorem nodes_cons_ok {n : Node} {ns : List Node} {y z : Yield} (hn : node s enter c n = .ok y)
    (hns : nodes s enter c ns = .ok z) : nodes s enter c (n :: ns) = .ok (y.append z) := by
  rw [nodes, hn, hns]
  rfl

/-- Nodes without an import anywhere among them are left as they are. -/
theorem nodes_of_forall {ns : List Node}
    (h : ∀ n ∈ ns, node s enter c n = .ok { nodes := [n] }) :
    nodes s enter c ns = .ok { nodes := ns } := by
  induction ns with
  | nil => rw [nodes]
  | cons n ns ih =>
    rw [nodes_cons_ok (h n (by simp)) (ih fun m hm => h m (by simp [hm]))]
    simp [Yield.append]

theorem node_of_no_import {n : Node}
    (h : ∀ m ∈ n.walk, m.isAtRuleNamed "import".toList = false) :
    node s enter c n = .ok { nodes := [n] } := by
  induction n using Node.induction with
  | leaf n hn =>
    have ho : Import.ofNode? n c.origin = none := by
      cases n with
      | statement before hd semicolon =>
        have := h (.statement before hd semicolon) (by simp [Node.walk])
        simp only [Node.isAtRuleNamed, Node.atHead?, beq_eq_false_iff_ne] at this
        exact if_neg this
      | _ => rfl
    rw [node_of_leaf hn, Plan.ofNode, ho]
    rfl
  | block before hd children after ih =>
    have hc : nodes s enter c children = .ok { nodes := children } := by
      refine nodes_of_forall fun n hn => ih n hn fun m hm => h m ?_
      rw [Node.walk]
      exact List.mem_cons_of_mem _ (Node.mem_walkAll.2 ⟨n, hn, hm⟩)
    rw [node_block, hc]
    rfl

end OnePass

namespace Run

variable {s : Setup} {c : Context} {p q : Progress}

/-- An order adds what its plan says. -/
theorem adds_order {n : Node} {o : Option Order} (hp : p.ledger.Honest s.network)
    (h : Ends (order s c n) p (.ok o) q) :
    ∃ plan, Plan.ofNode s c n = .ok plan ∧ o = plan.order? ∧ q.ledger.Honest s.network ∧
      p.Adds (plan.early c) q := by
  unfold Ends at h
  cases hplan : Plan.ofNode s c n with
  | error f =>
    rw [outcome_order_error hplan] at h
    cases h
  | ok plan =>
    refine ⟨plan, rfl, ?_⟩
    cases plan with
    | fetch d url =>
      obtain ⟨l, events, hr, hl, hasked, hsteps⟩ := hp.request url
      rw [outcome_order_fetch hplan, hr] at h
      cases h
      refine ⟨rfl, hl, ⟨by simp [Plan.early], ?_, by simp [Plan.early, hasked]⟩⟩
      intro e he
      have : e ∉ events := fun hm => by simp [hsteps e hm] at he
      simp [Plan.early, List.count_eq_zero.2 this]
    | _ =>
      rw [outcome_order_of_none hplan rfl] at h
      cases h
      exact ⟨rfl, hp, p.adds_noting rfl⟩

/-- The orders of some siblings add what their plans say. -/
theorem adds_orders {ns : List Node} {os : List (Option Order)}
    (hp : p.ledger.Honest s.network) (h : Ends (orders s c ns) p (.ok os) q) :
    ∃ plans, PlansOf s c ns plans ∧ os = plans.map Plan.order? ∧ q.ledger.Honest s.network ∧
      p.Adds (Plan.earlyAll c plans) q := by
  induction ns generalizing p os with
  | nil =>
    obtain ⟨ho, rfl⟩ := ends_pure.1 h
    cases ho
    exact ⟨[], .nil, rfl, hp, .refl q⟩
  | cons n ns ih =>
    rw [orders] at h
    obtain ⟨o, r, ho, h⟩ := ends_bind_ok.1 h
    obtain ⟨os', r', hos, h⟩ := ends_bind_ok.1 h
    obtain ⟨he, rfl⟩ := ends_pure.1 h
    cases he
    obtain ⟨plan, hplan, rfl, hr, hadd⟩ := adds_order hp ho
    obtain ⟨plans, hplans, rfl, hq, hadds⟩ := ih hr hos
    exact ⟨plan :: plans, .cons hplan hplans, rfl, hq, hadd.trans hadds⟩

/-- Walking over fetched content does what `enter` does in one pass. -/
def Simulates (s : Setup) (descend : Context → List Node → Run (List Node))
    (enter : Context → List Node → Except Halt Yield) : Prop :=
  ∀ c ns p content q, p.ledger.Honest s.network → Ends (descend c ns) p (.ok content) q →
    ∃ y, enter c ns = .ok y ∧ content = y.nodes ∧ q.ledger.Honest s.network ∧ p.Adds y q

variable {descend : Context → List Node → Run (List Node)}
  {enter : Context → List Node → Except Halt Yield}

theorem adds_visit (hd : Simulates s descend enter) (hp : p.ledger.Honest s.network) {url : Text}
    {children content : List Node} (h : Ends (visit s descend c url children) p (.ok content) q) :
    ∃ y, OnePass.visit s enter c url children = .ok y ∧ content = y.nodes ∧
      q.ledger.Honest s.network ∧ p.Adds y q := by
  unfold visit at h
  unfold OnePass.visit
  by_cases hc : c.canDescend
  · simp only [hc, if_true] at h ⊢
    exact hd _ _ _ _ _ hp h
  · simp only [hc, if_false, Bool.false_eq_true] at h ⊢
    obtain ⟨u, r, hl, h⟩ := ends_bind_ok.1 h
    obtain ⟨he, rfl⟩ := ends_pure.1 h
    cases he
    cases hr : OnePass.remarks s (c.descend url)
        (Import.findAll children (c.descend url).origin) with
    | error f =>
      have := outcome_reportLeft_error hr p
      rw [Ends] at hl
      rw [hl] at this
      cases this
    | ok y =>
      rw [Ends, outcome_reportLeft hr] at hl
      cases hl
      refine ⟨_, rfl, rfl, hp, ?_⟩
      exact p.adds_noting (y := { nodes := children, findings := y.findings, events := y.events })
        rfl

/-- Replacing an import adds what the one pass says, less that the page was asked for. -/
theorem adds_inline (hd : Simulates s descend enter) (hp : p.ledger.Honest s.network) {n : Node}
    {d : Import} {url : Text} {e : Edit} (hu : url ∈ p.ledger.requested)
    (h : Ends (inline s descend c n (d, url)) p (.ok e) q) :
    ∃ y late, OnePass.replace s enter c n d url = .ok y ∧ e.apply n = y.nodes ∧
      q.ledger.Honest s.network ∧ p.Adds late q ∧
      y.Same (((Plan.fetch d url).early c).append late) := by
  rw [Ends, outcome_inline (hp.answer?_eq hu)] at h
  by_cases hw : stopsWaiting s p url (s.network.answer url)
  · rw [if_pos hw] at h
    cases h
  rw [if_neg hw] at h
  cases hc : s.content url with
  | error e =>
    rw [hc] at h
    cases h
  | ok page =>
    rw [hc] at h
    cases page with
    | error f =>
      cases h
      refine ⟨_, .skipped [] c url .failed (some f), by rw [OnePass.replace, hc], ?_, hp,
        p.adds_noting rfl, ?_⟩
      · simp [Edit.apply, Yield.skipped]
      · exact Yield.same_of_eq rfl rfl rfl
    | ok children =>
      obtain ⟨content, r, hv, h⟩ := ends_bind_ok.1 h
      obtain ⟨u, r', ht, h⟩ := ends_bind_ok.1 h
      obtain ⟨-, rfl⟩ := ends_tell.1 ht
      obtain ⟨he, rfl⟩ := ends_pure.1 h
      cases he
      obtain ⟨y, hy, rfl, hr, hadd⟩ := adds_visit hd hp hv
      refine ⟨{ nodes := replacement d n y.nodes
                findings := y.findings
                events := y.events ++ [.resolved url c.depth d.media]
                asked := url :: y.asked },
        y.append { events := [.resolved url c.depth d.media] }, ?_, ?_, hr,
        hadd.trans (r.adds_noting rfl), ?_⟩
      · rw [OnePass.replace, hc]
        exact map_eq_ok_iff.2 ⟨_, hy, rfl⟩
      · simp [Edit.apply]
      · exact Yield.same_of_eq (List.append_nil _).symm rfl
          (congrArg (url :: ·) (List.append_nil _).symm)

/-- The edit of a node adds what the one pass says, less what its plan has said before. -/
def Settles (s : Setup) (descend : Context → List Node → Run (List Node))
    (enter : Context → List Node → Except Halt Yield) (c : Context) (n : Node) : Prop :=
  ∀ plan p e q, p.ledger.Honest s.network → Plan.ofNode s c n = .ok plan →
    (∀ u ∈ (plan.early c).asked, u ∈ p.ledger.requested) →
    Ends (editNode s (inline s descend) c n plan.order?) p (.ok e) q →
    ∃ y late, OnePass.node s enter c n = .ok y ∧ e.apply n = y.nodes ∧
      q.ledger.Honest s.network ∧ p.Adds late q ∧ y.Same ((plan.early c).append late)

theorem adds_editNodes {ns : List Node} (hn : ∀ n ∈ ns, Settles s descend enter c n)
    (hp : p.ledger.Honest s.network) {plans : List Plan} (hplans : PlansOf s c ns plans)
    (hu : ∀ u ∈ (Plan.earlyAll c plans).asked, u ∈ p.ledger.requested) {es : List Edit}
    (h : Ends (editNodes s (inline s descend) c ns (plans.map Plan.order?)) p (.ok es) q) :
    ∃ y late, OnePass.nodes s enter c ns = .ok y ∧ Edit.applyAll ns es = y.nodes ∧
      q.ledger.Honest s.network ∧ p.Adds late q ∧
      y.Same ((Plan.earlyAll c plans).append late) := by
  induction hplans generalizing p es with
  | nil =>
    rw [List.map_nil, editNodes] at h
    · obtain ⟨he, rfl⟩ := ends_pure.1 h
      cases he
      exact ⟨{}, {}, by rw [OnePass.nodes], by simp [Edit.applyAll], hp, .refl q,
        Yield.same_of_eq rfl rfl rfl⟩
    · simp
  | @cons n plan ns plans hplan hplans ih =>
    rw [List.map_cons, editNodes] at h
    obtain ⟨e, r, he, h⟩ := ends_bind_ok.1 h
    obtain ⟨es', r', hes, h⟩ := ends_bind_ok.1 h
    obtain ⟨hcons, rfl⟩ := ends_pure.1 h
    cases hcons
    have hearly : ∀ u ∈ (plan.early c).asked, u ∈ p.ledger.requested :=
      fun u hm => hu u (List.mem_append_left _ hm)
    obtain ⟨y, late, hy, hnode, hr, hadd, hsame⟩ :=
      hn n (by simp) plan p e r hp hplan hearly he
    have hlater : ∀ u ∈ (Plan.earlyAll c plans).asked, u ∈ r.ledger.requested :=
      fun u hm => (hadd.asked u).2 (.inl (hu u (List.mem_append_right _ hm)))
    obtain ⟨ys, lates, hys, hnodes, hq, hadds, hsames⟩ :=
      ih (fun m hm => hn m (by simp [hm])) hr hlater hes
    refine ⟨y.append ys, late.append lates, OnePass.nodes_cons_ok hy hys, ?_, hq,
      hadd.trans hadds, hsame.interleave hsames⟩
    rw [Edit.applyAll, hnode, hnodes, Yield.append]

/-- Both phases over some siblings add what the one pass over them says. -/
theorem adds_siblings {r : Progress} {ns : List Node}
    (hn : ∀ n ∈ ns, Settles s descend enter c n) (hp : p.ledger.Honest s.network)
    {os : List (Option Order)} {es : List Edit} (ho : Ends (orders s c ns) p (.ok os) r)
    (he : Ends (editNodes s (inline s descend) c ns os) r (.ok es) q) :
    ∃ y, OnePass.nodes s enter c ns = .ok y ∧ Edit.applyAll ns es = y.nodes ∧
      q.ledger.Honest s.network ∧ p.Adds y q := by
  obtain ⟨plans, hplans, rfl, hr, hearly⟩ := adds_orders hp ho
  obtain ⟨y, late, hy, hnodes, hq, hlate, hsame⟩ :=
    adds_editNodes hn hr hplans (fun u hu => (hearly.asked u).2 (.inr hu)) he
  exact ⟨y, hy, hnodes, hq, (hearly.trans hlate).congr hsame⟩

/-- The edit of a block, which is entered if an import stands below it. -/
theorem editNode_block (replace : Context → Node → Order → Run Edit) (before : Text)
    (h : Head) (children : List Node) (after : Text) :
    editNode s replace c (.block before h children after) none =
      (if holdsImport (.block before h children after) then do
        checkAborted s
        let os ← orders s c children
        let edits ← editNodes s replace c children os
        pure (.within edits)
      else pure .keep) := by rw [editNode]

theorem editNode_leaf {replace : Context → Node → Order → Run Edit} {n : Node}
    (hn : n.items = [.leaf n]) : editNode s replace c n none = pure .keep := by
  cases n with
  | block before h children after => simp at hn
  | _ => rw [editNode]; simp

theorem editNode_order (replace : Context → Node → Order → Run Edit) (n : Node) (o : Order) :
    editNode s replace c n (some o) = replace c n o := by
  cases n <;> rw [editNode]

/-- Every node settles, whatever stands below it. -/
theorem settles (hd : Simulates s descend enter) (n : Node) : Settles s descend enter c n := by
  induction n using Node.induction with
  | leaf n hn =>
    intro plan p e q hp hplan hu h
    have hnode : OnePass.node s enter c n = _ := OnePass.node_of_leaf hn
    rw [hplan] at hnode
    cases plan with
    | fetch d url =>
      change Ends (editNode s (inline s descend) c n (some (d, url))) p (.ok e) q at h
      rw [editNode_order] at h
      obtain ⟨y, late, hy, hrest⟩ := adds_inline hd hp (hu url (by simp [Plan.early])) h
      exact ⟨y, late, hnode.trans hy, hrest⟩
    | _ =>
      change Ends (editNode s (inline s descend) c n none) p (.ok e) q at h
      rw [editNode_leaf hn] at h
      obtain ⟨he, rfl⟩ := ends_pure.1 h
      cases he
      refine ⟨_, {}, hnode, by simp [Edit.apply], hp, .refl q, ?_⟩
      exact Yield.same_of_eq (List.append_nil _).symm (List.append_nil _).symm
        (List.append_nil _).symm
  | block before hd' children after ih =>
    intro plan p e q hp hplan hu h
    cases hplan
    change Ends (editNode s (inline s descend) c (.block before hd' children after) none) p
      (.ok e) q at h
    rw [editNode_block] at h
    split at h
    · obtain ⟨u, r, hr, h⟩ := ends_bind_ok.1 h
      obtain ⟨os, r₁, ho, h⟩ := ends_bind_ok.1 h
      obtain ⟨es, r₂, he, h⟩ := ends_bind_ok.1 h
      obtain ⟨hw, rfl⟩ := ends_pure.1 h
      cases hw
      obtain rfl := progress_of_checkAborted hr
      obtain ⟨y, hy, hnodes, hq, hadd⟩ := adds_siblings ih hp ho he
      refine ⟨{ y with nodes := [.block before hd' y.nodes after] }, y, ?_, ?_, hq, hadd, ?_⟩
      · rw [OnePass.node_block, hy]
        rfl
      · simp [Edit.apply, hnodes]
      · exact Yield.same_of_eq rfl rfl rfl
    · rename_i hold
      obtain ⟨he, rfl⟩ := ends_pure.1 h
      cases he
      refine ⟨{ nodes := [.block before hd' children after] }, {}, ?_, by simp [Edit.apply], hp,
        .refl q, ?_⟩
      · have hnone : ∀ m ∈ Node.walkAll children, m.isAtRuleNamed "import".toList = false := by
          simpa [holdsImport, Node.children] using hold
        have hc : OnePass.nodes s enter c children = .ok { nodes := children } :=
          OnePass.nodes_of_forall fun n hn => OnePass.node_of_no_import fun m hm =>
            hnone m (Node.mem_walkAll.2 ⟨n, hn, hm⟩)
        rw [OnePass.node_block, hc]
        rfl
      · exact Yield.same_of_eq rfl rfl rfl

theorem adds_edits_succ {fuel : Nat} (hd : Simulates s
      (fun c ns => return Edit.applyAll ns (← edits s fuel c ns)) enter)
    (hp : p.ledger.Honest s.network) {ns : List Node} {es : List Edit}
    (h : Ends (edits s (fuel + 1) c ns) p (.ok es) q) :
    ∃ y, OnePass.nodes s enter c ns = .ok y ∧ Edit.applyAll ns es = y.nodes ∧
      q.ledger.Honest s.network ∧ p.Adds y q := by
  rw [edits] at h
  obtain ⟨u, r, hr, h⟩ := ends_bind_ok.1 h
  obtain ⟨os, r₁, ho, he⟩ := ends_bind_ok.1 h
  obtain rfl := progress_of_checkAborted hr
  exact adds_siblings (fun n _ => settles hd n) hp ho he

/-- A walk over content does what the one pass does, which may have more fuel. -/
theorem simulates_edits (s : Setup) {fuel fuel' : Nat} (hf : fuel ≤ fuel') :
    Simulates s (fun c ns => return Edit.applyAll ns (← edits s fuel c ns))
      (OnePass.inline s fuel') := by
  induction fuel generalizing fuel' with
  | zero =>
    intro c ns p content q hp h
    obtain ⟨es, r, he, -⟩ := ends_bind_ok.1 h
    rw [edits, ends_halt] at he
    cases he.1
  | succ fuel ih =>
    obtain ⟨fuel', rfl⟩ : ∃ k, fuel' = k + 1 := ⟨fuel' - 1, by omega⟩
    intro c ns p content q hp h
    obtain ⟨es, r, he, h⟩ := ends_bind_ok.1 h
    obtain ⟨hcontent, rfl⟩ := ends_pure.1 h
    obtain ⟨y, hy, hnodes, hq, hadd⟩ :=
      adds_edits_succ (ih (Nat.le_of_succ_le_succ hf)) hp he
    cases hcontent
    exact ⟨y, hy, hnodes, hq, hadd⟩

/-- A walk over the nodes of a sheet adds what the one pass over them says. -/
theorem adds_edits {fuel fuel' : Nat} {ns : List Node} {es : List Edit} (hf : fuel ≤ fuel')
    (hp : p.ledger.Honest s.network) (h : Ends (edits s fuel c ns) p (.ok es) q) :
    ∃ y, OnePass.inline s fuel' c ns = .ok y ∧ Edit.applyAll ns es = y.nodes ∧
      q.ledger.Honest s.network ∧ p.Adds y q := by
  have hret : Ends (do return Edit.applyAll ns (← edits s fuel c ns)) p
      (.ok (Edit.applyAll ns es)) q := ends_bind_ok.2 ⟨es, q, h, ends_pure.2 ⟨rfl, rfl⟩⟩
  exact simulates_edits s hf c ns p _ q hp hret

end Run

theorem Sheet.ends_of_resolve {s : Setup} {sheet : Sheet} {x : Except Halt (List Edit)}
    (h : (sheet.resolve s).edits = x) :
    Run.Ends (Run.edits s (s.network.size + 2) (.atStart s.options sheet.origin) sheet.children)
      {} x (sheet.resolve s).progress := Prod.ext h rfl

end StyleSplice
