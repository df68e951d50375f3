import StyleSplice.Proofs.Import.Anchored
import StyleSplice.Proofs.Resolve.Deeds

/-!
# Runs with and without anchored references

Anchoring changes the text of the imports in fetched pages before the run reads them. Two runs that
differ in nothing else go side by side as long as every import keeps its meaning: they ask for the
same pages in the same order, replace the same imports, and say the same.
-/

namespace StyleSplice

/-- The same run with anchored references. -/
def Setup.anchored (s : Setup) : Setup :=
  { s with options := { s.options with anchorReferences := true } }

/-- The context at the same place in the run with anchored references. -/
def Context.anchored (c : Context) : Context :=
  { c with options := { c.options with anchorReferences := true } }

@[simp] theorem Setup.network_anchored (s : Setup) : s.anchored.network = s.network := rfl

@[simp] theorem Setup.anchorReferences_anchored (s : Setup) :
    s.anchored.options.anchorReferences = true := rfl

/-- The imports of a page keep their meaning when their targets are resolved. -/
def Setup.Faithful (s : Setup) (url : Text) : Prop :=
  ∀ page, s.page? url = some page →
    ∀ d n, (d, n) ∈ Import.findAll page.children (some url) → d.Survives url

instance (s : Setup) (url : Text) : Decidable (s.Faithful url) :=
  decidable_of_iff (∀ page ∈ s.page? url, ∀ x ∈ Import.findAll page.children (some url),
    x.1.Survives url) ⟨fun h page hpage d n hx => h page hpage (d, n) hx,
    fun h page hpage x hx => h page hpage x.1 x.2 hx⟩

theorem Context.origin_descend (c : Context) (url : Text) : (c.descend url).origin = some url := by
  simp [origin, descend]

/-- Pages that cannot be had or read are the same in both runs, and the others are anchored. -/
theorem Setup.content_anchored {s : Setup} (hoff : s.options.anchorReferences = false)
    (url : Text) : s.anchored.content url = match s.content url with
      | .ok (.ok children) =>
        match Node.anchorAll url children with
        | .ok ns => .ok (.ok ns)
        | .error f => .error (.badUrl f)
      | x => x := by
  unfold content
  rw [network_anchored]
  cases s.network.answer url with
  | body text =>
    dsimp only
    cases Sheet.parse text (some url) with
    | error f => rfl
    | ok sheet =>
      simp only [hoff, anchorReferences_anchored, Bool.false_eq_true, if_false, if_true]
      cases Node.anchorAll url sheet.children <;> rfl
  | _ => rfl

/-- Two plans that come to the same. -/
inductive Plan.Alike : Plan → Plan → Prop
  | same (plan : Plan) : Alike plan plan
  | fetch {d d' : Import} {url : Text} (media : d'.media = d.media) :
    Alike (.fetch d url) (.fetch d' url)

namespace Plan

variable {s : Setup} {c : Context} {n m : Node} {ns ms : List Node} {plan plan' : Plan}
  {plans plans' : List Plan}

theorem alike_of_ofNode (h : Node.Alike s.options.schemeText c.origin n m)
    (hn : ofNode s c n = .ok plan) (hm : ofNode s.anchored c.anchored m = .ok plan') :
    Alike plan plan' := by
  change ofNode s c m = .ok plan' at hm
  have hread := h.reading
  unfold ofNode at hn hm
  cases hd : Import.ofNode? n c.origin with
  | none =>
    rw [hd, Option.map_none, Option.map_eq_none_iff] at hread
    rw [hd] at hn
    rw [hread] at hm
    cases hn
    cases hm
    exact .same _
  | some d =>
    rw [hd, Option.map_some, Option.map_eq_some_iff] at hread
    obtain ⟨d', hd', hsame⟩ := hread
    obtain ⟨hclass, hmedia⟩ := Prod.mk.inj hsame
    rw [hd] at hn
    rw [hd'] at hm
    dsimp only at hn hm
    rw [hclass] at hm
    cases ht : Target.classify d.target c.origin s.options.schemeText with
    | error f =>
      rw [ht] at hn
      cases hn
    | ok target =>
      rw [ht] at hn hm hclass
      cases target with
      | localPath path =>
        cases hn
        cases hm
        rw [← Target.eq_of_classify ht, ← Target.eq_of_classify hclass]
        exact .same _
      | remote url =>
        dsimp only at hn hm
        split at hn
        · rename_i hv
          rw [if_pos hv] at hm
          cases hn
          cases hm
          exact .same _
        · rename_i hv
          rw [if_neg hv] at hm
          cases hn
          cases hm
          exact .fetch hmedia

theorem alike_plansOf (h : Node.Matched (Node.Alike s.options.schemeText c.origin) ns ms)
    (hn : PlansOf s c ns plans) (hm : PlansOf s.anchored c.anchored ms plans') :
    List.Forall₂ Alike plans plans' := by
  induction h generalizing plans plans' with
  | nil =>
    cases hn
    cases hm
    exact .nil
  | leaf _ _ related _ ih =>
    cases hn with
    | cons hplan hplans =>
      cases hm with
      | cons hplan' hplans' =>
        exact .cons (alike_of_ofNode related hplan hplan') (ih hplans hplans')
  | block _ _ _ ih =>
    cases hn with
    | cons hplan hplans =>
      cases hm with
      | cons hplan' hplans' =>
        cases hplan
        cases hplan'
        exact .cons (.same _) (ih hplans hplans')

theorem Alike.early (h : Alike plan plan') : plan'.early c.anchored = plan.early c := by
  cases h with
  | same => cases plan <;> rfl
  | fetch => rfl

end Plan

namespace Run

variable {α β γ δ : Type} {s : Setup} {c : Context} {p q : Progress}

/-- If both computations return from the same progress, they return with the same progress. -/
def Agree (m : Run α) (m' : Run β) (p : Progress) : Prop :=
  ∀ a q a' q', Ends m p (.ok a) q → Ends m' p (.ok a') q' → q' = q

theorem agree_of_outcome {m : Run α} {m' : Run β} (h : (m'.outcome p).2 = (m.outcome p).2) :
    Agree m m' p := by
  intro a q a' q' hm hm'
  rw [Ends] at hm hm'
  rw [hm, hm'] at h
  exact h

theorem agree_pure (a : α) (b : β) (p : Progress) : Agree (pure a) (pure b) p :=
  agree_of_outcome rfl

theorem Agree.bind {m : Run α} {m' : Run β} {f : α → Run γ} {f' : β → Run δ} (h : Agree m m' p)
    (hf : ∀ a a' q, Ends m p (.ok a) q → Ends m' p (.ok a') q → Agree (f a) (f' a') q) :
    Agree (m >>= f) (m' >>= f') p := by
  intro b q b' q' hb hb'
  obtain ⟨a, r, ha, hfa⟩ := ends_bind_ok.1 hb
  obtain ⟨a', r', ha', hfa'⟩ := ends_bind_ok.1 hb'
  obtain rfl := h a r a' r' ha ha'
  exact hf a a' r' ha ha' b q b' q' hfa hfa'

/-- What is made of the results makes no difference. -/
theorem Agree.returning {m : Run α} {m' : Run β} (h : Agree m m' p) (f : α → γ) (f' : β → δ) :
    Agree (do return f (← m)) (do return f' (← m')) p :=
  h.bind fun a b q _ _ => agree_pure (f a) (f' b) q

theorem agree_order {n m : Node} {plan plan' : Plan} (h : plan.Alike plan')
    (hn : Plan.ofNode s c n = .ok plan) (hm : Plan.ofNode s.anchored c.anchored m = .ok plan') :
    Agree (order s c n) (order s.anchored c.anchored m) p := by
  have hfetch : ∀ {d d' : Import} {url : Text}, Plan.ofNode s c n = .ok (.fetch d url) →
      Plan.ofNode s.anchored c.anchored m = .ok (.fetch d' url) →
      Agree (order s c n) (order s.anchored c.anchored m) p := fun {d d' url} hn hm => by
    apply agree_of_outcome
    rw [outcome_order_fetch hn, outcome_order_fetch hm, Setup.network_anchored]
    cases p.ledger.request s.network url <;> rfl
  cases h with
  | same =>
    cases plan with
    | fetch d url => exact hfetch hn hm
    | _ =>
      apply agree_of_outcome
      rw [outcome_order_of_none hn rfl, outcome_order_of_none hm rfl, (Plan.Alike.same _).early]
  | fetch => exact hfetch hn hm

theorem agree_orders {ns ms : List Node} {plans plans' : List Plan}
    (h : List.Forall₂ Plan.Alike plans plans') (hn : PlansOf s c ns plans)
    (hm : PlansOf s.anchored c.anchored ms plans') :
    Agree (orders s c ns) (orders s.anchored c.anchored ms) p := by
  induction h generalizing ns ms p with
  | nil =>
    cases hn
    cases hm
    exact agree_pure _ _ p
  | cons halike _ ih =>
    cases hn with
    | cons hplan hplans =>
      cases hm with
      | cons hplan' hplans' =>
        rw [orders, orders]
        refine (agree_order halike hplan hplan').bind fun _ _ q _ _ => ?_
        exact (ih hplans hplans').returning _ _

variable {ns ms : List Node} {descend descend' : Context → List Node → Run (List Node)}
  {enter : Context → List Node → Except Halt Yield}

/-- The imports of like nodes mean the same, one by one. -/
theorem forall₂_findAll {scheme : Text} {origin : Option Text}
    (h : Node.Matched (Node.Alike scheme origin) ns ms) :
    List.Forall₂ (fun x y : Import × Node =>
      Target.classify y.1.target origin scheme = Target.classify x.1.target origin scheme)
      (Import.findAll ns origin) (Import.findAll ms origin) := by
  unfold Import.findAll
  induction h with
  | nil => exact .nil
  | @leaf n m ns ms hn hm related _ ih =>
    have hread := related.reading
    rw [Node.walkAll_cons, Node.walkAll_cons, Node.walk_of_leaf hn, Node.walk_of_leaf hm,
      List.filterMap_append, List.filterMap_append]
    refine List.rel_append ?_ ih
    rw [List.filterMap_cons, List.filterMap_cons]
    cases hd : Import.ofNode? n origin with
    | none =>
      rw [hd, Option.map_none, Option.map_eq_none_iff] at hread
      rw [hread]
      exact .nil
    | some d =>
      rw [hd, Option.map_some, Option.map_eq_some_iff] at hread
      obtain ⟨d', hd', hsame⟩ := hread
      rw [hd']
      exact .cons (Prod.mk.inj hsame).1 .nil
  | @block before after hd children children' ns ms _ _ ih ihs =>
    have hblock : ∀ children : List Node,
        Import.ofNode? (.block before hd children after) origin = none := fun _ => rfl
    simp only [Node.walkAll_cons, Node.walk, List.cons_append, List.filterMap_cons,
      List.filterMap_append, hblock, Option.map_none]
    exact List.rel_append ih ihs

/-- Reports of imports that mean the same say the same. -/
theorem agree_reportLeft (h : Node.Matched (Node.Alike s.options.schemeText c.origin) ns ms) :
    Agree (reportLeft s c (Import.findAll ns c.origin))
      (reportLeft s.anchored c.anchored (Import.findAll ms c.origin)) p := by
  have hfound := forall₂_findAll h
  generalize Import.findAll ns c.origin = xs at hfound
  generalize Import.findAll ms c.origin = ys at hfound
  apply agree_of_outcome
  induction hfound generalizing p with
  | nil => rfl
  | @cons x y xs ys hxy _ ih =>
    obtain ⟨d, n⟩ := x
    obtain ⟨d', m⟩ := y
    rw [outcome_reportLeft_cons, outcome_reportLeft_cons]
    have hclass : Target.classify d'.target c.anchored.origin s.anchored.options.schemeText =
      Target.classify d.target c.origin s.options.schemeText := hxy
    rw [hclass]
    cases Target.classify d.target c.origin s.options.schemeText with
    | error f => rfl
    | ok target =>
      have hremark : OnePass.remark s.anchored c.anchored target = OnePass.remark s c target := by
        cases target <;> rfl
      dsimp only
      rw [hremark]
      exact ih

theorem agree_visit {url : Text}
    (h : Node.Matched (Node.Alike s.options.schemeText (some url)) ns ms)
    (hd : c.canDescend = true →
      Agree (descend (c.descend url) ns) (descend' (c.descend url).anchored ms) p) :
    Agree (visit s descend c url ns) (visit s.anchored descend' c.anchored url ms) p := by
  rw [← c.origin_descend url] at h
  unfold visit
  have hsame : c.anchored.canDescend = c.canDescend := rfl
  rw [hsame]
  by_cases hc : c.canDescend = true
  · rw [if_pos hc, if_pos hc]
    exact hd hc
  · rw [if_neg hc, if_neg hc]
    exact (agree_reportLeft h).returning _ _

/-- Both runs go on in the same way in each page that the nodes lead to. -/
def Follows (s : Setup) (descend descend' : Context → List Node → Run (List Node)) (c : Context)
    (ns : List Node) : Prop :=
  ∀ url children children' p, Leads s c ns url → s.content url = .ok (.ok children) →
    Node.anchorAll url children = .ok children' → p.ledger.Honest s.network →
    Node.Matched (Node.Alike s.options.schemeText (some url)) children children' ∧
    (c.canDescend = true →
      Agree (descend (c.descend url) children) (descend' (c.descend url).anchored children') p)

theorem agree_inline (hf : Follows s descend descend' c ns)
    (hoff : s.options.anchorReferences = false) (hp : p.ledger.Honest s.network) {n m : Node}
    {d d' : Import} {url : Text} (hn : n ∈ Node.walkAll ns)
    (hplan : Plan.ofNode s c n = .ok (.fetch d url)) (hmedia : d'.media = d.media)
    (hu : url ∈ p.ledger.requested) :
    Agree (inline s descend c n (d, url)) (inline s.anchored descend' c.anchored m (d', url))
      p := by
  intro e q e' q' h h'
  rw [Ends, outcome_inline (hp.answer?_eq hu)] at h
  rw [Ends, outcome_inline (s := s.anchored) (hp.answer?_eq hu), Setup.content_anchored hoff] at h'
  have hstops : stopsWaiting s.anchored p url (s.anchored.network.answer url) =
      stopsWaiting s p url (s.network.answer url) := rfl
  rw [hstops] at h'
  by_cases hw : stopsWaiting s p url (s.network.answer url)
  · rw [if_pos hw] at h
    cases h
  rw [if_neg hw] at h h'
  cases hc : s.content url with
  | error e =>
    rw [hc] at h
    cases h
  | ok page =>
    rw [hc] at h h'
    cases page with
    | error f =>
      cases h
      cases h'
      rfl
    | ok children =>
      cases ha : Node.anchorAll url children with
      | error f =>
        simp only [ha] at h'
        cases h'
      | ok children' =>
        simp only [ha] at h'
        obtain ⟨halike, hdescend⟩ := hf url children children' p (leads_of_fetch hn hplan) hc ha hp
        rw [hmedia] at h'
        refine (agree_visit halike hdescend).bind (fun _ _ r _ _ => ?_) e q e' q' h h'
        exact Agree.returning (agree_of_outcome rfl) _ _

/-- The same nodes hold imports. -/
theorem any_named_of_matched {scheme : Text} {origin : Option Text}
    (h : Node.Matched (Node.Alike scheme origin) ns ms) :
    (Node.walkAll ms).any (Node.isAtRuleNamed "import".toList) =
      (Node.walkAll ns).any (Node.isAtRuleNamed "import".toList) := by
  induction h with
  | nil => rfl
  | @leaf n m ns ms hn hm related _ ih =>
    rw [Node.walkAll_cons, Node.walkAll_cons, Node.walk_of_leaf hn, Node.walk_of_leaf hm,
      List.any_append, List.any_append, ih, List.any_cons, List.any_cons, related.named]
  | @block before after hd children children' ns ms _ _ ih ihs =>
    have hhead : Node.isAtRuleNamed "import".toList (.block before hd children' after) =
        Node.isAtRuleNamed "import".toList (.block before hd children after) := by
      cases hd <;> rfl
    simp only [Node.walkAll_cons, Node.walk, List.cons_append, List.any_cons, List.any_append,
      hhead, ih, ihs]

/-- The edits of both lists of nodes agree, whatever their plans are. -/
def AgreeEdits (s : Setup) (descend descend' : Context → List Node → Run (List Node)) (c : Context)
    (ns ms : List Node) : Prop :=
  ∀ p plans plans', p.ledger.Honest s.network → PlansOf s c ns plans →
    PlansOf s.anchored c.anchored ms plans' → List.Forall₂ Plan.Alike plans plans' →
    (∀ u ∈ (Plan.earlyAll c plans).asked, u ∈ p.ledger.requested) →
    Agree (editNodes s (inline s descend) c ns (plans.map Plan.order?))
      (editNodes s.anchored (inline s.anchored descend') c.anchored ms (plans'.map Plan.order?)) p

theorem agree_siblings (h : Node.Matched (Node.Alike s.options.schemeText c.origin) ns ms)
    (he : AgreeEdits s descend descend' c ns ms) (hp : p.ledger.Honest s.network) :
    Agree (do
        checkAborted s
        let os ← orders s c ns
        editNodes s (inline s descend) c ns os)
      (do
        checkAborted s.anchored
        let os ← orders s.anchored c.anchored ms
        editNodes s.anchored (inline s.anchored descend') c.anchored ms os) p := by
  refine Agree.bind (agree_of_outcome ?_) fun _ _ r hr _ => ?_
  · rw [outcome_checkAborted, outcome_checkAborted]
  obtain rfl := progress_of_checkAborted hr
  intro es q es' q' h₁ h₂
  obtain ⟨os, r, ho, hes⟩ := ends_bind_ok.1 h₁
  obtain ⟨os', r', ho', hes'⟩ := ends_bind_ok.1 h₂
  obtain ⟨plans, hplans, rfl, hr, hadd⟩ := adds_orders hp ho
  obtain ⟨plans', hplans', rfl, -, -⟩ := adds_orders (s := s.anchored) hp ho'
  have halike := Plan.alike_plansOf h hplans hplans'
  obtain rfl := agree_orders halike hplans hplans' _ r _ r' ho ho'
  exact he r' plans plans' hr hplans hplans' halike (fun u hu => (hadd.asked u).2 (.inr hu)) es q
    es' q' hes hes'

theorem agree_leaf (hf : Follows s descend descend' c ns)
    (hoff : s.options.anchorReferences = false) (hp : p.ledger.Honest s.network) {n m : Node}
    (hn : n.items = [.leaf n]) (hm : m.items = [.leaf m]) (hmem : n ∈ Node.walkAll ns)
    {plan plan' : Plan} (halike : plan.Alike plan') (hplan : Plan.ofNode s c n = .ok plan)
    (hu : ∀ u ∈ (plan.early c).asked, u ∈ p.ledger.requested) :
    Agree (editNode s (inline s descend) c n plan.order?)
      (editNode s.anchored (inline s.anchored descend') c.anchored m plan'.order?) p := by
  have hfetch : ∀ {d d' : Import} {url : Text}, Plan.ofNode s c n = .ok (.fetch d url) →
      d'.media = d.media → url ∈ p.ledger.requested →
      Agree (editNode s (inline s descend) c n (some (d, url)))
        (editNode s.anchored (inline s.anchored descend') c.anchored m (some (d', url))) p := by
    intro d d' url hplan hmedia hu
    rw [editNode_order, editNode_order]
    exact agree_inline hf hoff hp hmem hplan hmedia hu
  cases halike with
  | same =>
    cases plan with
    | fetch d url => exact hfetch hplan rfl (hu url (by simp [Plan.early]))
    | _ =>
      change Agree (editNode s (inline s descend) c n none)
        (editNode s.anchored (inline s.anchored descend') c.anchored m none) p
      rw [editNode_leaf hn, editNode_leaf hm]
      exact agree_pure _ _ p
  | fetch media => exact hfetch hplan media (hu _ (by simp [Plan.early]))

theorem agree_block {children children' : List Node}
    (h : Node.Matched (Node.Alike s.options.schemeText c.origin) children children')
    (he : AgreeEdits s descend descend' c children children') (hp : p.ledger.Honest s.network)
    (before : Text) (hd : Head) (after : Text) :
    Agree (editNode s (inline s descend) c (.block before hd children after) none)
      (editNode s.anchored (inline s.anchored descend') c.anchored
        (.block before hd children' after) none) p := by
  have hholds : holdsImport (.block before hd children' after) =
      holdsImport (.block before hd children after) := any_named_of_matched h
  rw [editNode_block, editNode_block, hholds]
  split
  · have hwithin := (agree_siblings h he hp).returning Edit.within Edit.within
    simpa only [bind_assoc] using hwithin
  · exact agree_pure _ _ p

/-- The rest of the nodes starts where the run has left the first of them, and knows their pages. -/
theorem ready_of_editNode (hs : Simulates s descend enter) (hp : p.ledger.Honest s.network)
    {n : Node} {plan : Plan} {plans : List Plan} (hn : Plan.ofNode s c n = .ok plan)
    (hu : ∀ u ∈ (Plan.earlyAll c (plan :: plans)).asked, u ∈ p.ledger.requested) {e : Edit}
    {r : Progress} (he : Ends (editNode s (inline s descend) c n plan.order?) p (.ok e) r) :
    r.ledger.Honest s.network ∧ ∀ u ∈ (Plan.earlyAll c plans).asked, u ∈ r.ledger.requested := by
  obtain ⟨y, late, -, -, hr, hadd, -⟩ :=
    settles hs n plan p e r hp hn (fun u hm => hu u (List.mem_append_left _ hm)) he
  exact ⟨hr, fun u hm => (hadd.asked u).2 (.inl (hu u (List.mem_append_right _ hm)))⟩

/-- The edits of like nodes agree. -/
theorem agreeEdits_of_matched (hf : Follows s descend descend' c ns)
    (hoff : s.options.anchorReferences = false) (hs : Simulates s descend enter) {ks ls : List Node}
    (h : Node.Matched (Node.Alike s.options.schemeText c.origin) ks ls)
    (hsub : ∀ n ∈ Node.walkAll ks, n ∈ Node.walkAll ns) :
    AgreeEdits s descend descend' c ks ls := by
  induction h with
  | nil =>
    intro p plans plans' _ hn hm _ _
    cases hn
    cases hm
    exact agree_of_outcome rfl
  | @leaf n m ks ls hleaf hleaf' _ _ ih =>
    intro p _ _ hp hn hm halike hu
    cases hn with
    | @cons _ plan _ plans hn hns =>
      cases hm with
      | @cons _ plan' _ plans' hm hms =>
        obtain ⟨hfirst, hlater⟩ := List.forall₂_cons.1 halike
        rw [List.map_cons, List.map_cons, editNodes, editNodes]
        refine (agree_leaf hf hoff hp hleaf hleaf' (hsub n (by simp [n.mem_walk_self])) hfirst hn
          fun u hu' => hu u (List.mem_append_left _ hu')).bind fun e e' r he _ => ?_
        obtain ⟨hr, hu'⟩ := ready_of_editNode hs hp hn hu he
        exact (ih (fun k hk => hsub k (by simp [hk])) r plans plans' hr hns hms hlater
          hu').returning _ _
  | @block before after hd children children' ks ls inner _ ih ihs =>
    intro p _ _ hp hn hm halike hu
    cases hn with
    | @cons _ plan _ plans hn hns =>
      cases hm with
      | @cons _ plan' _ plans' hm hms =>
        obtain ⟨-, hlater⟩ := List.forall₂_cons.1 halike
        cases hm
        rw [List.map_cons, List.map_cons, editNodes, editNodes]
        have hinner := ih fun k hk => hsub k (by simp [Node.walk, hk])
        refine Agree.bind ?_ fun e e' r he _ => ?_
        · cases hn
          exact agree_block inner hinner hp before hd after
        · obtain ⟨hr, hu'⟩ := ready_of_editNode hs hp hn hu he
          exact (ihs (fun k hk => hsub k (by simp [hk])) r plans plans' hr hns hms hlater
            hu').returning _ _

/-- Two walks over like nodes agree, as long as every import in a page that the first comes to keeps
its meaning. -/
theorem agree_edits (hoff : s.options.anchorReferences = false) {fuel : Nat} {c : Context}
    {ns ms : List Node} (hfaith : ∀ c' ns' url, Enters s c ns c' ns' → Leads s c' ns' url →
      s.Faithful url)
    (h : Node.Matched (Node.Alike s.options.schemeText c.origin) ns ms)
    (hp : p.ledger.Honest s.network) :
    Agree (edits s fuel c ns) (edits s.anchored fuel c.anchored ms) p := by
  induction fuel generalizing c ns ms p with
  | zero =>
    intro es q es' q' he _
    cases (ends_halt.1 he).1
  | succ fuel ih =>
    rw [edits, edits]
    have hf : Follows s (fun c ns => return Edit.applyAll ns (← edits s fuel c ns))
        (fun c ns => return Edit.applyAll ns (← edits s.anchored fuel c ns)) c ns := by
      intro url children children' p leads content hanchor hp
      obtain ⟨page, hpage, rfl⟩ := Setup.content_of_off hoff content
      have halike :
          Node.Matched (Node.Alike s.options.schemeText (some url)) page.children children' :=
        Node.matched_alike_of_anchorAll (hfaith c ns url (.refl c ns) leads page hpage) hanchor
      refine ⟨halike, fun hc => ?_⟩
      rw [← c.origin_descend url] at halike
      refine (ih (fun c' ns' u henters => ?_) halike hp).returning _ _
      exact hfaith c' ns' u (.inside leads content hc henters)
    exact agree_siblings h (agreeEdits_of_matched hf hoff (simulates_edits s (Nat.le_refl fuel)) h
      fun _ hn => hn) hp

end Run

/-- If both runs return, and every import of each page that the first has asked for keeps its
meaning when its target is resolved, then the runs ask for the same pages in the same order, tell of
the same events and find the same to complain about. -/
theorem anchored_resolve_agrees {s : Setup} (hoff : s.options.anchorReferences = false)
    {sheet : Sheet} {edits edits' : List Edit} (h : (sheet.resolve s).edits = .ok edits)
    (h' : (sheet.resolve s.anchored).edits = .ok edits')
    (hfaith : ∀ url ∈ (sheet.resolve s).progress.ledger.requested, s.Faithful url) :
    (sheet.resolve s.anchored).progress = (sheet.resolve s).progress := by
  obtain ⟨y, hy, -, -, hadd⟩ :=
    Run.adds_edits (Nat.le_refl _) (Ledger.honest_empty _) (Sheet.ends_of_resolve h)
  have hreach : ∀ c' ns' url, Enters s (.atStart s.options sheet.origin) sheet.children c' ns' →
      Leads s c' ns' url → s.Faithful url := fun c' ns' url enters leads =>
    hfaith url ((hadd.asked url).2 (.inr (OnePass.mem_asked_of_enters enters leads hy)))
  exact Run.agree_edits hoff hreach (Node.matched_refl (fun n _ => Node.alike_refl _ n) _)
    (Ledger.honest_empty _) edits _ edits' _ (Sheet.ends_of_resolve h) (Sheet.ends_of_resolve h')

/-- A bracket in the address of a page closes the `url()` that the address is put into. The run with
anchored references asks for what is in front of it. -/
theorem anchored_resolve_asks_elsewhere :
    let pages : List (Text × Page) :=
      [("https://h/f(1)/a.css".toList, .body "@import url(b.css);".toList),
        ("https://h/f(1)/b.css".toList, .body "b\x7b\x7d".toList)]
    let s : Setup := { options := { recursive := true }, network := .ofPages [] pages }
    let sheet : Sheet :=
      ⟨[.statement [] ⟨"import".toList, "'https://h/f(1)/a.css'".toList, [' '], []⟩ true], [], none⟩
    Sheet.parse "@import 'https://h/f(1)/a.css';".toList = .ok sheet ∧
      (∃ edits, (sheet.resolve s).edits = .ok edits) ∧
      (∃ edits, (sheet.resolve s.anchored).edits = .ok edits) ∧
      (sheet.resolve s).progress.ledger.requested =
        ["https://h/f(1)/a.css".toList, "https://h/f(1)/b.css".toList] ∧
      (sheet.resolve s.anchored).progress.ledger.requested =
        ["https://h/f(1)/a.css".toList, "https://h/f(1".toList] := by
  intro pages s sheet
  have hp : Sheet.parse "@import 'https://h/f(1)/a.css';".toList = .ok sheet :=
    parse_eq_ok_iff.2 ⟨rfl, .cons rfl (.cons rfl (.nil _))⟩
  refine ⟨hp, exists_eq_ok_iff.2 ?_, exists_eq_ok_iff.2 ?_, ?_, ?_⟩
  all_goals decide +kernel

/-- Targets in each of the three forms become addresses: one with media, one below a block, and one
that leads back to its page. -/
theorem anchored_resolve_agrees_forms :
    let pages : List (Text × Page) :=
      [("https://h/x/a.css".toList,
          .body "@import url( ../b.css ) print;c\x7b@import 'c.css';\x7d".toList),
        ("https://h/b.css".toList, .body "@import url('x/a.css');@import url(b.css);".toList)]
    let s : Setup := { options := { recursive := true }, network := .ofPages [] pages }
    let sheet : Sheet :=
      ⟨[.statement [] ⟨"import".toList, "'https://h/x/a.css'".toList, [' '], []⟩ true], [], none⟩
    (∃ edits, (sheet.resolve s).edits = .ok edits) ∧
      (∃ edits, (sheet.resolve s.anchored).edits = .ok edits) ∧
      (∀ url ∈ (sheet.resolve s).progress.ledger.requested, s.Faithful url) ∧
      (sheet.resolve s.anchored).progress = (sheet.resolve s).progress ∧
      (sheet.resolve s).progress.ledger.requested =
        ["https://h/x/a.css".toList, "https://h/b.css".toList, "https://h/x/c.css".toList] := by
  intro pages s sheet
  obtain ⟨edits, h⟩ : ∃ edits, (sheet.resolve s).edits = .ok edits :=
    exists_eq_ok_iff.2 (by decide +kernel)
  obtain ⟨edits', h'⟩ : ∃ edits, (sheet.resolve s.anchored).edits = .ok edits :=
    exists_eq_ok_iff.2 (by decide +kernel)
  have hfaith : ∀ url ∈ (sheet.resolve s).progress.ledger.requested, s.Faithful url := by
    decide +kernel
  exact ⟨⟨edits, h⟩, ⟨edits', h'⟩, hfaith, anchored_resolve_agrees rfl h h' hfaith,
    by decide +kernel⟩

end StyleSplice
