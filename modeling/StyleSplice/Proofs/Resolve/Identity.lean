import StyleSplice.Proofs.Resolve.Deeds

/-!
# Runs that change nothing

As long as no page takes the place of an import, a run leaves every node as it was, and so the text
of the result is the text that was read. Imports with local targets do not even need the network: a
run over nothing else asks for no page, finds nothing to complain about, and returns.
-/

namespace StyleSplice

namespace OnePass

variable {s : Setup} {enter : Context → List Node → Except Halt Yield} {c : Context} {y : Yield}
  {n : Node} {ns : List Node}

theorem nodes_of_unresolved (hnode : ∀ n ∈ ns, ∀ y, node s enter c n = .ok y →
      (∀ e ∈ y.events, e.kind ≠ .resolved) → y.nodes = [n])
    (h : nodes s enter c ns = .ok y) (hno : ∀ e ∈ y.events, e.kind ≠ .resolved) :
    y.nodes = ns := by
  induction ns generalizing y with
  | nil =>
    rw [nodes] at h
    cases h
    rfl
  | cons n ns ih =>
    obtain ⟨y₁, y₂, h₁, h₂, rfl⟩ := nodes_eq_ok_cons h
    have hfirst := hnode n (by simp) y₁ h₁ fun e he => hno e (List.mem_append_left _ he)
    have hrest := ih (fun m hm => hnode m (by simp [hm])) h₂
      fun e he => hno e (List.mem_append_right _ he)
    rw [Yield.append, hfirst, hrest, List.singleton_append]

/-- A node stays if no event tells of a replacement. -/
theorem node_of_unresolved (h : node s enter c n = .ok y)
    (hno : ∀ e ∈ y.events, e.kind ≠ .resolved) : y.nodes = [n] := by
  induction n using Node.induction generalizing y with
  | leaf n hn =>
    rw [node_of_leaf hn] at h
    split at h
    · cases h
    · rename_i d url hplan
      unfold replace at h
      split at h
      · cases h
      · cases h
        rfl
      · obtain ⟨z, -, rfl⟩ := map_eq_ok_iff.1 h
        exact absurd rfl (hno (.resolved url c.depth d.media) (by simp))
    · cases h
      rfl
  | block before hd children after ih =>
    rw [node_block] at h
    obtain ⟨z, hz, rfl⟩ := map_eq_ok_iff.1 h
    rw [nodes_of_unresolved (fun m hm y => ih m hm) hz hno]

end OnePass

/-- From `p` to `q` no page was asked for, nothing was complained about and nothing replaced. -/
structure Progress.Rests (p q : Progress) : Prop where
  ledger : q.ledger = p.ledger
  diagnostics : q.diagnostics = p.diagnostics
  told : q.trace.filter (fun e => e.kind == .resolved) =
    p.trace.filter fun e => e.kind == .resolved

theorem Progress.Rests.refl (p : Progress) : p.Rests p := ⟨rfl, rfl, rfl⟩

theorem Progress.Rests.noting {p q : Progress} (h : p.Rests q) {y : Yield} (hf : y.findings = [])
    (he : ∀ e ∈ y.events, e.kind ≠ .resolved) : p.Rests (q.noting y) where
  ledger := h.ledger
  diagnostics := by simp [Progress.noting, hf, h.diagnostics]
  told := by
    have hnone : y.events.filter (fun e => e.kind == .resolved) = [] :=
      List.filter_eq_nil_iff.2 fun e hmem => by simpa using he e hmem
    simp only [Progress.noting, List.filter_append, hnone, List.append_nil, h.told]

/-- Nodes among which nothing was replaced are left as they are. -/
theorem Run.applyAll_of_unresolved {s : Setup} {fuel : Nat} {c : Context} {ns : List Node}
    {es : List Edit} {p q : Progress} (hp : p.ledger.Honest s.network)
    (h : Ends (edits s fuel c ns) p (.ok es) q)
    (hno : q.trace.filter (fun e => e.kind == .resolved) =
      p.trace.filter fun e => e.kind == .resolved) : Edit.applyAll ns es = ns := by
  cases fuel with
  | zero => cases (ends_halt.1 h).1
  | succ fuel =>
    obtain ⟨y, hy, hnodes, -, hadd⟩ := adds_edits (Nat.le_refl _) hp h
    rw [hnodes]
    refine OnePass.nodes_of_unresolved (fun n _ y => OnePass.node_of_unresolved) hy fun e he hk => ?_
    -- The count of an event that tells of a replacement is the same before and after.
    have hsame := congrArg (List.count e) hno
    rw [List.count_filter (by simpa using hk), List.count_filter (by simpa using hk),
      hadd.events e (by cases e <;> first | rfl | cases hk)] at hsame
    exact List.count_eq_zero.1 (by omega) he

/-- A run that returns without a replacement leaves the sheet as it is. -/
theorem Sheet.edited_of_unresolved {s : Setup} {sheet : Sheet} {edits : List Edit}
    (h : (sheet.resolve s).edits = .ok edits)
    (hno : ∀ e ∈ (sheet.resolve s).progress.trace, e.kind ≠ .resolved) :
    sheet.edited edits = sheet := by
  have hnone : (sheet.resolve s).progress.trace.filter (fun e => e.kind == .resolved) = [] :=
    List.filter_eq_nil_iff.2 fun e he => by simpa using hno e he
  rw [Sheet.edited, Run.applyAll_of_unresolved (Ledger.honest_empty _) (Sheet.ends_of_resolve h)
    hnone]

/-- No page was asked for, nothing was complained about and nothing replaced. -/
structure Progress.Quiet (p : Progress) : Prop where
  requested : p.ledger.requested = []
  diagnostics : p.diagnostics = []
  trace : ∀ e ∈ p.trace, e.kind ≠ .resolved

theorem Progress.Rests.quiet {q : Progress} (h : Progress.Rests {} q) : q.Quiet where
  requested := by rw [h.ledger]; rfl
  diagnostics := h.diagnostics
  trace e he hk := List.filter_eq_nil_iff.1 h.told e he (by simpa using hk)

/-- All imports among the nodes have local targets. -/
def AllLocal (s : Setup) (c : Context) (ns : List Node) : Prop :=
  ∀ d n, (d, n) ∈ Import.findAll ns c.origin → ∃ path,
    Target.classify d.target c.origin s.options.schemeText = .ok (.localPath path)

namespace AllLocal

variable {s : Setup} {c c' : Context} {ns ns' : List Node} {url : Text}

theorem not_leads (h : AllLocal s c ns) : ¬ Leads s c ns url := by
  rintro ⟨d, n, hmem, hremote, -⟩
  obtain ⟨path, hp⟩ := h d n hmem
  rw [hremote] at hp
  cases hp

theorem not_stumbles (h : AllLocal s c ns) (f : UrlFault) : ¬ Stumbles s c ns f := by
  intro hf
  cases hf with
  | target found refused =>
    obtain ⟨path, hp⟩ := h _ _ found
    rw [refused] at hp
    cases hp
  | anchor leads _ => exact h.not_leads leads
  | inside leads _ _ _ => exact h.not_leads leads
  | left leads _ _ _ _ => exact h.not_leads leads

/-- The walk enters no page. -/
theorem eq_of_enters (h : AllLocal s c ns) (he : Enters s c ns c' ns') : c' = c ∧ ns' = ns := by
  cases he with
  | refl => exact ⟨rfl, rfl⟩
  | inside leads _ _ _ => exact absurd leads h.not_leads

theorem not_breaks (h : AllLocal s c ns) (e : Halt) : ¬ Breaks s c ns e := by
  intro hb
  cases hb with
  | stumble refused => exact h.not_stumbles _ refused
  | page enters leads _ =>
    obtain ⟨rfl, rfl⟩ := h.eq_of_enters enters
    exact h.not_leads leads

/-- What there is to say of a node is no complaint and tells of no replacement. -/
theorem quiet_early (h : AllLocal s c ns) {n : Node} {plan : Plan} (hn : n ∈ Node.walkAll ns)
    (hplan : Plan.ofNode s c n = .ok plan) :
    (plan.early c).findings = [] ∧ ∀ e ∈ (plan.early c).events, e.kind ≠ .resolved := by
  unfold Plan.ofNode at hplan
  cases hd : Import.ofNode? n c.origin with
  | none =>
    rw [hd] at hplan
    cases hplan
    exact ⟨rfl, by simp [Plan.early]⟩
  | some d =>
    obtain ⟨path, hp⟩ := h d n (Import.mem_findAll.2 ⟨hn, hd⟩)
    rw [hd] at hplan
    dsimp only at hplan
    rw [hp] at hplan
    cases hplan
    exact ⟨rfl, by simp [Plan.early, Yield.skipped, Event.kind]⟩

theorem rests_deed (h : AllLocal s c ns) {p q r : Progress} (hq : p.Rests q)
    (hdeed : Deed s c ns q r) : p.Rests r := by
  cases hdeed with
  | remain mem plan_eq _ =>
    obtain ⟨hf, he⟩ := h.quiet_early mem plan_eq
    exact hq.noting hf he
  | request mem plan_eq _ => exact absurd (leads_of_fetch mem plan_eq) h.not_leads
  | leave mem plan_eq _ => exact absurd (leads_of_fetch mem plan_eq) h.not_leads
  | replace mem plan_eq _ => exact absurd (leads_of_fetch mem plan_eq) h.not_leads
  | remark leads _ _ _ _ => exact absurd leads h.not_leads

theorem rests_acts (h : AllLocal s c ns) {p q : Progress} (hacts : Acts s c ns p q) :
    p.Rests q := by
  refine hacts.keep (P := p.Rests) (fun c' ns' q r henters hq hdeed => ?_) (.refl p)
  obtain ⟨rfl, rfl⟩ := h.eq_of_enters henters
  exact h.rests_deed hq hdeed

/-- What such a walk does, and why it fails if it does; no bound on the network is needed. -/
theorem meets_edits (h : AllLocal s c ns) {p : Progress} (hp : p.ledger.Honest s.network)
    (fuel : Nat) : Run.Meets (Run.edits s (fuel + 1) c ns) p (fun _ q => Acts s c ns p q)
      (Run.Fails s c ns p) := by
  rw [Run.edits]
  have hd : Run.Descends s (fun c ns => return Edit.applyAll ns (← Run.edits s fuel c ns)) c ns :=
    fun _ _ _ leads => absurd leads h.not_leads
  refine Run.meets_siblings (fun n hn => Run.edits_node hd fun m hm => ?_) (fun _ hm => hm) hp
  exact Node.mem_walkAll.2 ⟨n, hn, hm⟩

end AllLocal

/-- A run over a sheet whose imports have local targets asks for nothing, complains about nothing and
changes nothing, and unless somebody aborts it, it returns. -/
theorem Sheet.resolve_of_allLocal {s : Setup} {sheet : Sheet}
    (h : AllLocal s (.atStart s.options sheet.origin) sheet.children) :
    (sheet.resolve s).progress.Quiet ∧
      (∀ edits, (sheet.resolve s).edits = .ok edits → sheet.edited edits = sheet) ∧
      (s.abortAfter = none → ∃ edits, (sheet.resolve s).edits = .ok edits) := by
  obtain ⟨hacts, hbreaks⟩ :=
    Sheet.acts_of_meets (h.meets_edits (Ledger.honest_empty _) (s.network.size + 1))
  have hquiet := (h.rests_acts hacts).quiet
  refine ⟨hquiet, fun edits he => Sheet.edited_of_unresolved he hquiet.trace, fun ha => ?_⟩
  cases he : (sheet.resolve s).edits with
  | ok edits => exact ⟨edits, rfl⟩
  | error e => exact absurd (hbreaks e he ha) (h.not_breaks e)

/-- If no event tells of a replacement, a run that returns gives back the text that was read. If all
imports have local targets, the run asks for no page and finds nothing to complain about, and unless
somebody aborts it, it returns, with the text that was read. -/
theorem resolve_keeps_text {s : Setup} {source : Text} {origin : Option Text} {sheet : Sheet}
    (hp : Sheet.parse source origin = .ok sheet) :
    (∀ edits, (sheet.resolve s).edits = .ok edits →
      (∀ e ∈ (sheet.resolve s).progress.trace, e.kind ≠ .resolved) →
      (sheet.edited edits).text = source) ∧
    (AllLocal s (.atStart s.options sheet.origin) sheet.children →
      (sheet.resolve s).progress.ledger.requested = [] ∧
      (sheet.resolve s).progress.diagnostics = [] ∧
      (∀ edits, (sheet.resolve s).edits = .ok edits → (sheet.edited edits).text = source) ∧
      (s.abortAfter = none → ∃ edits, (sheet.resolve s).edits = .ok edits)) := by
  have htext : sheet.text = source := Sheet.text_of_reads (parse_eq_ok_iff.1 hp).2
  refine ⟨fun edits he hno => ?_, fun hlocal => ?_⟩
  · rw [Sheet.edited_of_unresolved he hno, htext]
  · obtain ⟨hquiet, hsame, hreturns⟩ := Sheet.resolve_of_allLocal hlocal
    refine ⟨hquiet.requested, hquiet.diagnostics, fun edits he => ?_, hreturns⟩
    rw [hsame edits he, htext]

/-- One import is local and stands below a block, one has no target, and in the first run a third is
missing. -/
theorem resolve_keeps_text_missing :
    let s : Setup := { options := {}, network := .ofPages [] [] }
    let missing : Node :=
      .statement [] ⟨"import".toList, "'https://h/a.css'".toList, [' '], []⟩ true
    let below : Node :=
      .block [] (.rule ['a'] [])
        [.statement [] ⟨"import".toList, "'b.css'".toList, [' '], []⟩ true,
          .statement [' '] ⟨"import".toList, "x".toList, [' '], []⟩ false] ['\n']
    let sheet : Sheet := ⟨[missing, below], [], none⟩
    let rest : Sheet := ⟨[below], [], none⟩
    (∃ edits, (sheet.resolve s).edits = .ok edits ∧
      (sheet.edited edits).text =
        "@import 'https://h/a.css';a\x7b@import 'b.css'; @import x\n\x7d".toList) ∧
    (rest.resolve s).progress.ledger.requested = [] ∧ (rest.resolve s).progress.diagnostics = [] ∧
    ∃ edits, (rest.resolve s).edits = .ok edits ∧
      (rest.edited edits).text = "a\x7b@import 'b.css'; @import x\n\x7d".toList := by
  intro s missing below sheet rest
  have hp : Sheet.parse "@import 'https://h/a.css';a\x7b@import 'b.css'; @import x\n\x7d".toList =
      .ok sheet :=
    parse_eq_ok_iff.2
      ⟨rfl, .cons rfl (.cons rfl (.cons rfl (.cons rfl (.cons rfl (.cons rfl (.nil _))))))⟩
  have hq : Sheet.parse "a\x7b@import 'b.css'; @import x\n\x7d".toList = .ok rest :=
    parse_eq_ok_iff.2 ⟨rfl, .cons rfl (.cons rfl (.cons rfl (.cons rfl (.cons rfl (.nil _)))))⟩
  obtain ⟨edits, h⟩ : ∃ edits, (sheet.resolve s).edits = .ok edits :=
    exists_eq_ok_iff.2 (by decide +kernel)
  have hno : ∀ e ∈ (sheet.resolve s).progress.trace, e.kind ≠ .resolved := by decide +kernel
  have hlocal : AllLocal s (.atStart s.options rest.origin) rest.children := by
    have hall : ∀ x ∈ Import.findAll rest.children none,
        Target.classify x.1.target none s.options.schemeText = .ok (.localPath x.1.target) := by
      decide +kernel
    exact fun d n hmem => ⟨d.target, hall (d, n) hmem⟩
  obtain ⟨hr, hf, htext, hreturns⟩ := (resolve_keeps_text hq).2 hlocal
  obtain ⟨edits', h'⟩ := hreturns rfl
  exact ⟨⟨edits, h, (resolve_keeps_text hp).1 edits h hno⟩, hr, hf, edits', h', htext edits' h'⟩

end StyleSplice
