import StyleSplice.Proofs.Resolve.Identity
import StyleSplice.Proofs.Resolve.Lockstep

/-!
# Raising the limit of depth

A run with a later limit enters every context that the run enters, so it asks for all of its pages,
if it returns. If the limit has kept the run from nothing, each page that the run has not walked over
holds imports with local targets only, and walking over it changes nothing. So then both runs are
the same, but for what is told of these imports.
-/

namespace StyleSplice

section

variable {s : Setup} {c c' : Context} {ns ns' children : List Node} {url : Text} {d fuel : Nat}
  {limit : Option Nat} {p q : Progress}

theorem Context.depth_lt_of_canDescend (hd : c.options.maxDepth = some d)
    (h : c.canDescend = true) : c.depth < d := by
  rw [canDescend, hd] at h
  simpa using (Bool.and_eq_true_iff.1 h).2

/-- Where the walk may go on within the limit, it may do so within a later one. -/
theorem Context.canDescend_withDepth (hd : c.options.maxDepth = some d)
    (hle : ∀ k ∈ limit, d ≤ k) (h : c.canDescend = true) :
    (c.withDepth true limit).canDescend = true := by
  cases limit with
  | none => rfl
  | some k =>
    have hk : c.depth < k := Nat.lt_of_lt_of_le (depth_lt_of_canDescend hd h) (hle k rfl)
    exact decide_eq_true hk

/-- The limit bounds the depth of each context that the walk enters. -/
theorem Enters.depth_le (h : Enters s c ns c' ns') (hd : c.options.maxDepth = some d)
    (hc : c.depth ≤ d) : c'.depth ≤ d := by
  induction h with
  | refl => exact hc
  | inside leads content enters _ ih =>
    exact ih hd (Nat.succ_le_of_lt (Context.depth_lt_of_canDescend hd enters))

/-- With a later limit, the walk enters all that it enters, and more. -/
theorem Enters.withDepth (h : Enters s c ns c' ns') (hd : c.options.maxDepth = some d)
    (hle : ∀ k ∈ limit, d ≤ k) :
    Enters (s.withDepth true limit) (c.withDepth true limit) ns (c'.withDepth true limit) ns' := by
  induction h with
  | refl c ns => exact .refl _ ns
  | inside leads content enters _ ih =>
    exact .inside leads content (Context.canDescend_withDepth hd hle enters) (ih hd)

/-- Each page that was asked for is one that the walk was led to. -/
theorem Acts.exists_leads (h : Acts s c ns {} q) :
    ∀ url ∈ q.ledger.requested, ∃ c' ns', Enters s c ns c' ns' ∧ Leads s c' ns' url := by
  refine (h.keep (P := fun p => p.ledger.Honest s.network ∧ ∀ url ∈ p.ledger.requested,
    ∃ c' ns', Enters s c ns c' ns' ∧ Leads s c' ns' url) ?_
    ⟨Ledger.honest_empty _, by simp [Ledger.requested]⟩).2
  intro c' ns' p q henters hp hdeed
  refine ⟨hdeed.honest hp.1, ?_⟩
  cases hdeed with
  | @request n d url l events mem plan_eq granted =>
    obtain ⟨l', events', hr, -, hasked, -⟩ := hp.1.request url
    rw [granted] at hr
    cases hr
    intro u hu
    rcases (hasked u).1 hu with hu | rfl
    · exact hp.2 u hu
    · exact ⟨c', ns', henters, leads_of_fetch mem plan_eq⟩
  | _ => exact hp.2

/-- If no remark complains about the limit, all targets are local. -/
theorem OnePass.local_of_remarks {found : List (Import × Node)} {y : Yield}
    (hr : s.options.recursive = true) (h : remarks s c found = .ok y)
    (hno : ∀ x ∈ y.findings, x.rule ≠ "depth_exceeded") {e : Import} {n : Node}
    (hmem : (e, n) ∈ found) :
    ∃ path, Target.classify e.target c.origin s.options.schemeText = .ok (.localPath path) := by
  induction found generalizing y with
  | nil => cases hmem
  | cons x rest ih =>
    obtain ⟨e', n'⟩ := x
    unfold remarks at h
    split at h
    · cases h
    · rename_i target ht
      obtain ⟨z, hz, rfl⟩ := map_eq_ok_iff.1 h
      rcases List.mem_cons.1 hmem with hx | hmem
      · cases hx
        cases target with
        | localPath path => exact ⟨path, ht⟩
        | remote url =>
          let limit := s.options.maxDepth.map Int.ofNat
          refine absurd rfl (hno (.ofFault (.depth url limit) (some url) c.depth) ?_)
          exact List.mem_append_left _ (by simp [remark, hr, Yield.skipped, limit])
      · exact ih hz (fun x hx => hno x (List.mem_append_right _ hx)) hmem

/-- If the pass does not complain about the limit, the pages that it does not walk over hold imports
with local targets only. -/
theorem OnePass.allLocal_of_stays {y : Yield} (hr : s.options.recursive = true)
    (h : inline s fuel c ns = .ok y) (hno : ∀ x ∈ y.findings, x.rule ≠ "depth_exceeded")
    (enters : Enters s c ns c' ns') (leads : Leads s c' ns' url)
    (content : s.content url = .ok (.ok children)) (stays : c'.canDescend = false) :
    AllLocal s (c'.descend url) children := by
  obtain ⟨fuel', n, d, z, hz, hsub⟩ := exists_replace_of_enters enters leads h
  rw [replace, content] at hz
  obtain ⟨w, hw, rfl⟩ := map_eq_ok_iff.1 hz
  rw [visit, if_neg (by simp [stays])] at hw
  cases hv : remarks s (c'.descend url) (Import.findAll children (c'.descend url).origin) with
  | error f =>
    rw [hv] at hw
    cases hw
  | ok v =>
    rw [hv] at hw
    cases hw
    exact fun e m hmem => local_of_remarks hr hv (fun x hx => hno x (hsub.findings hx)) hmem

namespace AllLocal

theorem remarks_eq {found : List (Import × Node)}
    (h : ∀ e n, (e, n) ∈ found → ∃ path,
      Target.classify e.target c.origin s.options.schemeText = .ok (.localPath path)) :
    OnePass.remarks s c found = .ok {} := by
  induction found with
  | nil => rfl
  | cons x rest ih =>
    obtain ⟨e, n⟩ := x
    obtain ⟨path, hp⟩ := h e n (by simp)
    rw [OnePass.remarks, hp, ih fun e n hmem => h e n (by simp [hmem])]
    rfl

/-- Nothing is said of a page that is not walked over. -/
theorem outcome_visit (h : AllLocal s (c.descend url) children) (hc : c.canDescend = false)
    (descend : Context → List Node → Run (List Node)) (p : Progress) :
    (Run.visit s descend c url children).outcome p = (.ok children, p) := by
  rw [Run.visit, if_neg (by simp [hc]), Run.outcome_bind,
    Run.outcome_reportLeft (remarks_eq h), Progress.noting_empty]
  rfl

/-- Walking over such nodes returns them as they are. -/
theorem ends_walk (h : AllLocal s c ns) (ha : s.abortAfter = none)
    (hp : p.ledger.Honest s.network) (fuel : Nat) :
    ∃ q, Run.Ends (Run.walk s (fuel + 1) c ns) p (.ok ns) q ∧ p.Rests q := by
  obtain ⟨hacts, hfails⟩ := h.meets_edits hp fuel
  cases he : (Run.edits s (fuel + 1) c ns).outcome p with
  | mk x q =>
    cases x with
    | error e => exact absurd ((hfails e q he).2 ha) (h.not_breaks e)
    | ok es =>
      have hrests := h.rests_acts (hacts es q he)
      have hsame := Run.applyAll_of_unresolved hp he hrests.told
      refine ⟨q, Run.ends_bind_ok.2 ⟨es, q, he, ?_⟩, hrests⟩
      rw [hsame]
      exact Run.ends_pure.2 ⟨rfl, rfl⟩

end AllLocal

namespace Progress.Rests

variable {p' : Progress}

theorem trans (h : p.Rests p') (h' : p'.Rests q) : p.Rests q :=
  ⟨h'.ledger.trans h.ledger, h'.diagnostics.trans h.diagnostics, h'.told.trans h.told⟩

theorem noting_noting (h : p.Rests q) (y : Yield) : (p.noting y).Rests (q.noting y) where
  ledger := h.ledger
  diagnostics := by simp only [Progress.noting, h.diagnostics]
  told := by simp only [Progress.noting, List.filter_append, h.told]

theorem asking (h : p.Rests q) (l : Ledger) (events : List Event) :
    (p.asking l events).Rests (q.asking l events) where
  ledger := rfl
  diagnostics := h.diagnostics
  told := by simp only [Progress.asking, List.filter_append, h.told]

end Progress.Rests

/-- A run that the limit has kept from nothing and one with a later limit go in lockstep. -/
theorem Run.lockstep_limit {y : Yield} (hs : s.network.Bounded) (ha : s.abortAfter = none)
    (hr : s.options.recursive = true) (hd : s.options.maxDepth = some d)
    (hle : ∀ k ∈ limit, d ≤ k) (hy : OnePass.inline s fuel c ns = .ok y)
    (hno : ∀ x ∈ y.findings, x.rule ≠ "depth_exceeded") :
    Lockstep s true limit (fun p p' => p.ledger.Honest s.network ∧ p.Rests p')
      fun fuel c' ns' => Fits s fuel c' ∧ c'.options = s.options ∧ Enters s c ns c' ns' where
  honest h := h.1
  ledger h := h.2.ledger
  aborted h := by simp [isAborted, ha]
  request h hl _ := ⟨hl, h.2.asking _ _⟩
  told h _ := ⟨h.1, h.2.noting_noting _⟩
  descends {fuel c' ns' url children} hat leads content hc := by
    obtain ⟨hfits, ho, henters⟩ := hat
    exact ⟨Context.canDescend_withDepth (by rw [ho, hd]) hle hc, hfits.inside leads content, ho,
      henters.trans (.inside leads content hc (.refl _ _))⟩
  stays {fuel c' ns' url children p p'} hat leads content hc h := by
    obtain ⟨hfits, ho, henters⟩ := hat
    have hlocal := OnePass.allLocal_of_stays hr hy hno henters leads content hc
    have hlocal' : AllLocal (s.withDepth true limit) ((c'.withDepth true limit).descend url)
        children := hlocal
    -- The first run says nothing of this page. The second walks over it in vain, or is at its limit.
    have hstays := hlocal.outcome_visit hc (walk s fuel) p
    by_cases hc' : (c'.withDepth true limit).canDescend = true
    · have hpos := (hfits.inside leads content).pos hs
      obtain ⟨k, rfl⟩ : ∃ k, fuel = k + 1 := ⟨fuel - 1, by omega⟩
      have hp' : p'.ledger.Honest s.network := h.2.ledger ▸ h.1
      obtain ⟨q, hends, hrests⟩ := hlocal'.ends_walk ha hp' k
      refine tracks_of_outcome hstays ?_ ⟨h.1, h.2.trans hrests⟩
      rw [visit, if_pos hc']
      exact hends
    · exact tracks_of_outcome hstays (hlocal'.outcome_visit (by simpa using hc') _ p') h

end

/-- With the limit `d`, a run over a network with finitely many sheets asks for pages only in contexts
of depth `d` at most. A run with a later limit or none asks for these pages too, if it returns. If
the run with the limit `d` returns and does not complain about the limit, then the other run returns
the same, has asked for the same pages in the same order, and finds the same and tells of the same
replacements. -/
theorem resolve_stable_beyond_limit {s : Setup} (hs : s.network.Bounded) (ha : s.abortAfter = none)
    {d : Nat} {limit : Option Nat} (hle : ∀ k ∈ limit, d ≤ k) (sheet : Sheet) :
    let near := s.withDepth true (some d)
    let start := Context.atStart near.options sheet.origin
    let first := sheet.resolve near
    let second := sheet.resolve (s.withDepth true limit)
    (Acts near start sheet.children {} first.progress ∧
      (∀ c ns, Enters near start sheet.children c ns → c.depth ≤ d) ∧
      ∀ url ∈ first.progress.ledger.requested, ∃ c ns, Enters near start sheet.children c ns ∧
        Leads near c ns url) ∧
    (∀ edits, second.edits = .ok edits →
      first.progress.ledger.requested ⊆ second.progress.ledger.requested) ∧
    ∀ edits, first.edits = .ok edits →
      (∀ x ∈ first.progress.diagnostics, x.rule ≠ "depth_exceeded") →
      second.edits = .ok edits ∧
        second.progress.diagnostics = first.progress.diagnostics ∧
        second.progress.ledger.requested = first.progress.ledger.requested ∧
        (second.progress.trace.filter fun e => e.kind == .resolved) =
          first.progress.trace.filter fun e => e.kind == .resolved := by
  intro near start first second
  have hacts : Acts near start sheet.children {} first.progress :=
    (sheet.meets_resolve (show near.network.Bounded from hs)).1
  refine ⟨⟨hacts, fun c ns henters => henters.depth_le rfl (Nat.zero_le d), hacts.exists_leads⟩,
    fun edits he url hu => ?_, fun edits he hno => ?_⟩
  · obtain ⟨c, ns, henters, hleads⟩ := hacts.exists_leads url hu
    obtain ⟨y, hy, -, -, hadd⟩ :=
      Run.adds_edits (Nat.le_refl _) (Ledger.honest_empty _) (Sheet.ends_of_resolve he)
    have hasked := OnePass.mem_asked_of_enters (henters.withDepth rfl hle) hleads hy
    exact (hadd.asked url).2 (.inr hasked)
  · obtain ⟨y, hy, -, -, hadd⟩ :=
      Run.adds_edits (Nat.le_refl _) (Ledger.honest_empty _) (Sheet.ends_of_resolve he)
    have hfindings : ∀ x ∈ y.findings, x.rule ≠ "depth_exceeded" := fun x hx =>
      hno x (hadd.findings_subset hx)
    have hl : Run.Lockstep near true limit _ _ := Run.lockstep_limit hs ha rfl rfl hle hy hfindings
    obtain ⟨hedits, -, hrests⟩ := sheet.tracks_resolve hl
      ⟨.start near sheet.origin, rfl, .refl _ _⟩ ⟨Ledger.honest_empty _, .refl _⟩
    exact ⟨hedits.trans he, hrests.diagnostics, congrArg Ledger.requested hrests.ledger, hrests.told⟩

/-- The deeper run breaks down at a page that the other does not ask for, before it comes to the
block. So what it has asked for is not more, but something else. -/
theorem resolve_breaks_beyond_limit :
    let pages : List (Text × Page) :=
      [("https://h/a.css".toList, .body "@import 'https://h/c.css';".toList),
        ("https://h/b.css".toList, .body "b\x7b\x7d".toList),
        ("https://h/c.css".toList, .crash "gone".toList)]
    let s : Setup := { options := {}, network := .ofPages [] pages }
    let sheet : Sheet :=
      ⟨[.statement [] ⟨"import".toList, "'https://h/a.css'".toList, [' '], []⟩ true,
        .block [] (.atRule ⟨"media".toList, ['x'], [' '], []⟩)
          [.statement [] ⟨"import".toList, "'https://h/b.css'".toList, [' '], []⟩ true] []],
        [], none⟩
    let first := sheet.resolve (s.withDepth true (some 0))
    let second := sheet.resolve (s.withDepth true (some 1))
    Sheet.parse "@import 'https://h/a.css';@media x\x7b@import 'https://h/b.css';\x7d".toList =
        .ok sheet ∧
      first.progress.ledger.requested = ["https://h/a.css".toList, "https://h/b.css".toList] ∧
      second.progress.ledger.requested = ["https://h/a.css".toList, "https://h/c.css".toList] ∧
      second.edits = .error (.crashed "gone".toList) ∧
      ¬ first.progress.ledger.requested ⊆ second.progress.ledger.requested := by
  intro pages s sheet first second
  have hp : Sheet.parse "@import 'https://h/a.css';@media x\x7b@import 'https://h/b.css';\x7d".toList =
      .ok sheet :=
    parse_eq_ok_iff.2 ⟨rfl, .cons rfl (.cons rfl (.cons rfl (.cons rfl (.cons rfl (.nil _)))))⟩
  have hbroken : second.edits.map (fun _ => ()) = .error (.crashed "gone".toList) := by
    decide +kernel
  exact ⟨hp, by decide +kernel, by decide +kernel, map_eq_error_iff.1 hbroken, by decide +kernel⟩

/-- The limit is one, and what the page at the limit imports is local. The deeper run walks over this
page too, and tells of the import. -/
theorem resolve_stable_beyond_limit_local :
    let pages : List (Text × Page) :=
      [("https://h/a.css".toList, .body "@import 'b.css' print;@import 'no.css';".toList),
        ("https://h/b.css".toList, .body "c\x7b@import 'file:c.css';\x7d".toList)]
    let s : Setup := { options := {}, network := .ofPages [] pages }
    let sheet : Sheet :=
      ⟨[.statement [] ⟨"import".toList, "'https://h/a.css'".toList, [' '], []⟩ true], [], none⟩
    (∃ edits, (sheet.resolve (s.withDepth true (some 1))).edits = .ok edits ∧
        (sheet.resolve (s.withDepth true none)).edits = .ok edits) ∧
      (sheet.resolve (s.withDepth true none)).progress.diagnostics =
        (sheet.resolve (s.withDepth true (some 1))).progress.diagnostics ∧
      (sheet.resolve (s.withDepth true none)).progress.ledger.requested =
        (sheet.resolve (s.withDepth true (some 1))).progress.ledger.requested ∧
      (sheet.resolve (s.withDepth true (some 1))).progress.ledger.requested =
        ["https://h/a.css".toList, "https://h/b.css".toList, "https://h/no.css".toList] ∧
      (sheet.resolve (s.withDepth true none)).progress.trace.length =
        (sheet.resolve (s.withDepth true (some 1))).progress.trace.length + 1 := by
  intro pages s sheet
  have hs : s.network.Bounded := Network.bounded_ofPages [] pages
  obtain ⟨edits, h⟩ : ∃ edits, (sheet.resolve (s.withDepth true (some 1))).edits = .ok edits :=
    exists_eq_ok_iff.2 (by decide +kernel)
  have hno : ∀ x ∈ (sheet.resolve (s.withDepth true (some 1))).progress.diagnostics,
      x.rule ≠ "depth_exceeded" := by decide +kernel
  have hle : ∀ k ∈ (none : Option Nat), 1 ≤ k := by simp
  have hsame := (resolve_stable_beyond_limit hs rfl hle sheet).2.2 edits h hno
  exact ⟨⟨edits, h, hsame.1⟩, hsame.2.1, hsame.2.2.1, by decide +kernel, by decide +kernel⟩

end StyleSplice
