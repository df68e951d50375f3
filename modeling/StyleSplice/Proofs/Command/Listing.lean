import StyleSplice.Command.Run
import StyleSplice.Proofs.Resolve.Conservation

/-!
# The listing of a sheet and a run over it

The listing goes over all nodes of a sheet in one walk and classifies each import where it stands. A
run plans one list of nodes after the other, goes into a block only if an import stands below it, and
drops what leads back to the sheet. Both come to the same imports and read each of them in the same
way: what is listed as remote is what a run that follows no further imports asks for or finds to lead
back, and what is listed as local it leaves in place, once for every time that it is listed.
-/

namespace StyleSplice

/-- The path of a target that is local. -/
def Target.path? : Target → Option Text
  | .localPath path => some path
  | .remote _ => none

/-- The target of an import that stays at the given depth because it is local. -/
def Event.localTarget? (depth : Int) : Event → Option Text
  | .skipped target d reason =>
    if d = depth ∧ reason = SkipReason.localTarget.text.toList then some target else none
  | _ => none

/-- The address that an import leads to, whether or not it is to be fetched. -/
def Plan.url? : Plan → Option Text
  | .cycle url | .fetch _ url => some url
  | _ => none

/-- The target of an import that is to stay because it is local. -/
def Plan.localTarget? : Plan → Option Text
  | .localTarget target => some target
  | _ => none

namespace Listing

/-- What a listing shows: the imports of the sheet in the order of the text, and what the target of
each of them refers to. -/
structure Shows (s : Sheet) (entries : List (Import × Target)) (out : Text) : Prop where
  imports : entries.map Prod.fst = Listing.imports s
  targets : ∀ x ∈ entries, Target.classify x.1.target s.origin scheme = .ok x.2
  out : out = "Imports: ".toList ++ Text.ofNat entries.length ++
    '\n' :: entries.flatMap fun x => line x.1 x.2

theorem exists_of_lines {origin : Option Text} {ds : List Import} {out : Text}
    (h : lines origin ds = (out, none)) :
    ∃ entries : List (Import × Target), entries.map Prod.fst = ds ∧
      (∀ x ∈ entries, Target.classify x.1.target origin scheme = .ok x.2) ∧
      out = entries.flatMap fun x => line x.1 x.2 := by
  induction ds generalizing out with
  | nil =>
    cases h
    exact ⟨[], rfl, by simp, rfl⟩
  | cons d ds ih =>
    rw [lines] at h
    cases ht : Target.classify d.target origin scheme with
    | error f =>
      rw [ht] at h
      cases h
    | ok t =>
      rw [ht] at h
      rcases hrest : lines origin ds with ⟨rest, fault⟩
      rw [hrest] at h
      cases h
      obtain ⟨entries, himports, htargets, rfl⟩ := ih hrest
      exact ⟨(d, t) :: entries, congrArg (d :: ·) himports, List.forall_mem_cons.2 ⟨ht, htargets⟩,
        by rw [List.flatMap_cons]⟩

/-- A listing that comes to its end shows all imports. -/
theorem exists_shows {s : Sheet} (h : (Listing.text s).2 = none) :
    ∃ entries, Shows s entries (Listing.text s).1 := by
  have hlines : lines s.origin (imports s) = ((lines s.origin (imports s)).1, none) :=
    Prod.ext rfl h
  obtain ⟨entries, himports, htargets, hout⟩ := exists_of_lines hlines
  refine ⟨entries, himports, htargets, ?_⟩
  rw [← hout, ← List.length_map Prod.fst, himports]
  rfl

variable {s : Sheet} {entries : List (Import × Target)} {out : Text}

theorem Shows.mem_iff (h : Shows s entries out) {d : Import} {t : Target} :
    (d, t) ∈ entries ↔ (∃ n ∈ Node.walkAll s.children, Import.ofNode? n s.origin = some d) ∧
      Target.classify d.target s.origin scheme = .ok t := by
  have hd : (∃ n ∈ Node.walkAll s.children, Import.ofNode? n s.origin = some d) ↔
      ∃ t, (d, t) ∈ entries := by
    have hmem : d ∈ entries.map Prod.fst ↔ d ∈ Listing.imports s := by rw [h.imports]
    simpa [Listing.imports, Import.mem_findAll] using hmem.symm
  rw [hd]
  constructor
  · exact fun hmem => ⟨⟨t, hmem⟩, h.targets _ hmem⟩
  · rintro ⟨⟨t', hmem⟩, ht⟩
    have ht' := h.targets _ hmem
    rw [ht] at ht'
    cases ht'
    exact hmem

/-- The local targets of the listing, in order, are found by one walk. -/
theorem Shows.paths (h : Shows s entries out) :
    entries.filterMap (fun x => x.2.path?) = (Node.walkAll s.children).filterMap fun n =>
      (Import.ofNode? n s.origin).bind fun d =>
        (Target.classify d.target s.origin scheme).toOption.bind Target.path? := by
  have hpath : entries.filterMap (fun x => x.2.path?) = (Listing.imports s).filterMap fun d =>
      (Target.classify d.target s.origin scheme).toOption.bind Target.path? := by
    rw [← h.imports, List.filterMap_map]
    refine List.filterMap_congr fun x hx => ?_
    rw [Function.comp, h.targets x hx]
    rfl
  rw [hpath, Listing.imports, Import.findAll, List.map_filterMap, List.filterMap_filterMap]
  refine List.filterMap_congr fun n _ => ?_
  cases Import.ofNode? n s.origin <;> rfl

end Listing

theorem known_known (origin : Option Text) : known (known origin) = known origin := by
  cases origin with
  | none => rfl
  | some o => by_cases h : o.isEmpty <;> simp [known, Option.filter, h]

/-- Only a known address counts for a target. -/
theorem Target.classify_known (target : Text) (origin : Option Text) (scheme : Text) :
    classify target (known origin) scheme = classify target origin scheme := by
  rw [classify, classify, known_known]

theorem Context.origin_atStart (o : Options) (origin : Option Text) :
    (Context.atStart o origin).origin = known origin := by
  rw [Context.origin, Context.atStart]
  cases known origin <;> rfl

namespace Plan

/-- What a run plans for a node of its sheet, in terms of the import that the listing reads off it. -/
theorem ofNode_atStart (s : Setup) (origin : Option Text) (n : Node) :
    ofNode s (.atStart s.options origin) n = match Import.ofNode? n origin with
      | none => .ok .nothing
      | some d =>
        match Target.classify d.target origin s.options.schemeText with
        | .error f => .error f
        | .ok (.localPath _) => .ok (.localTarget d.target)
        | .ok (.remote url) =>
          if (Context.atStart s.options origin).visited url then .ok (.cycle url)
          else .ok (.fetch { d with origin := known origin } url) := by
  rw [ofNode, Context.origin_atStart, Import.ofNode?_eq_map n origin,
    Import.ofNode?_eq_map n (known origin)]
  cases Import.ofNode? n none with
  | none => rfl
  | some d =>
    have hclass := Target.classify_known d.target origin s.options.schemeText
    cases ht : Target.classify d.target origin s.options.schemeText with
    | error f => simp [hclass, ht]
    | ok t => cases t <;> simp [hclass, ht]

/-- The plan for a node leads to an address if and only if the listing reads that address off it. -/
theorem url?_atStart (s : Setup) (origin : Option Text) (n : Node) (url : Text) :
    (∃ plan, ofNode s (.atStart s.options origin) n = .ok plan ∧ plan.url? = some url) ↔
      ∃ d, Import.ofNode? n origin = some d ∧
        Target.classify d.target origin s.options.schemeText = .ok (.remote url) := by
  rw [ofNode_atStart]
  cases Import.ofNode? n origin with
  | none => simp [url?]
  | some d =>
    simp only [Option.some.injEq, exists_eq_left']
    cases Target.classify d.target origin s.options.schemeText with
    | error f => simp
    | ok t =>
      cases t with
      | localPath path => simp [url?]
      | remote url' => by_cases hv : (Context.atStart s.options origin).visited url' <;> simp [hv, url?]

theorem localTarget?_atStart (s : Setup) (origin : Option Text) (n : Node) :
    (ofNode s (.atStart s.options origin) n).toOption.bind localTarget? =
      (Import.ofNode? n origin).bind fun d =>
        (Target.classify d.target origin s.options.schemeText).toOption.bind Target.path? := by
  rw [ofNode_atStart]
  cases Import.ofNode? n origin with
  | none => rfl
  | some d =>
    dsimp only [Option.bind_some]
    cases ht : Target.classify d.target origin s.options.schemeText with
    | error f => rfl
    | ok t =>
      cases t with
      | localPath path =>
        rw [Target.eq_of_classify ht]
        rfl
      | remote url =>
        dsimp only
        split <;> rfl

end Plan

namespace OnePass

variable {s : Setup} {enter : Context → List Node → Except Halt Yield} {c : Context}
  {ns ms : List Node} {n : Node} {y z : Yield}

/-- What a pass that enters no page says of the nodes `ns` and those below them. -/
structure Tells (s : Setup) (c : Context) (ns : List Node) (y : Yield) : Prop where
  /-- It asks for a page if and only if this is planned for a node. -/
  asked : ∀ url, url ∈ y.asked ↔ ∃ n ∈ Node.walkAll ns, ∃ d, Plan.ofNode s c n = .ok (.fetch d url)
  /-- It finds every import that leads back, -/
  cycle : ∀ url, ∀ n ∈ Node.walkAll ns, Plan.ofNode s c n = .ok (.cycle url) →
    Diagnostic.ofFault (.cycle url c.stack) (some url) c.depth ∈ y.findings
  /-- and nothing but such imports and those that it asks for. -/
  findings : ∀ x ∈ y.findings, ∃ n ∈ Node.walkAll ns, ∃ plan, Plan.ofNode s c n = .ok plan ∧
    plan.url? = x.url ∧ x.url.isSome
  locals : y.events.filterMap (Event.localTarget? c.depth) =
    (Node.walkAll ns).filterMap fun n => (Plan.ofNode s c n).toOption.bind Plan.localTarget?

theorem Tells.nil (s : Setup) (c : Context) : Tells s c [] {} :=
  ⟨by simp, by simp, by simp, by simp⟩

theorem Tells.append (hy : Tells s c ns y) (hz : Tells s c ms z) :
    Tells s c (ns ++ ms) (y.append z) where
  asked url := by
    simp only [Yield.append, List.mem_append, hy.asked, hz.asked, Node.walkAll_append, or_and_right,
      exists_or]
  cycle url n hn hplan := by
    rw [Node.walkAll_append, List.mem_append] at hn
    exact List.mem_append.2 (hn.imp (hy.cycle url n · hplan) (hz.cycle url n · hplan))
  findings x hx := by
    rw [Node.walkAll_append]
    rcases List.mem_append.1 hx with hx | hx
    · obtain ⟨n, hn, hplan⟩ := hy.findings x hx
      exact ⟨n, List.mem_append_left _ hn, hplan⟩
    · obtain ⟨n, hn, hplan⟩ := hz.findings x hx
      exact ⟨n, List.mem_append_right _ hn, hplan⟩
  locals := by
    rw [Yield.append, List.filterMap_append, hy.locals, hz.locals, Node.walkAll_append,
      List.filterMap_append]

/-- A node that nothing is planned for adds nothing to what is said of the nodes below it. -/
theorem Tells.inside {before after : Text} {h : Head} (hy : Tells s c ns y) (nodes : List Node) :
    Tells s c [.block before h ns after] { y with nodes } := by
  have hwalk : Node.walkAll [.block before h ns after] =
      .block before h ns after :: Node.walkAll ns := by simp [Node.walk]
  have hnone : Plan.ofNode s c (.block before h ns after) = .ok .nothing := rfl
  refine ⟨fun url => ?_, fun url n hn hplan => ?_, fun x hx => ?_, ?_⟩
  · rw [hwalk]
    simpa [hnone] using hy.asked url
  · rw [hwalk] at hn
    rcases List.mem_cons.1 hn with rfl | hn
    · cases hnone.symm.trans hplan
    · exact hy.cycle url n hn hplan
  · obtain ⟨n, hn, hplan⟩ := hy.findings x hx
    exact ⟨n, hwalk ▸ List.mem_cons_of_mem _ hn, hplan⟩
  · rw [hwalk, List.filterMap_cons, hnone]
    exact hy.locals

/-- What is said of the imports in a page that is not entered: which of them are not followed. -/
theorem eq_of_remarks (hr : s.options.recursive = false) {found : List (Import × Node)}
    (h : remarks s c found = .ok y) :
    y.findings = [] ∧ y.asked = [] ∧
      ∀ depth, y.events.filterMap (Event.localTarget? depth) = [] := by
  induction found generalizing y with
  | nil =>
    cases h
    exact ⟨rfl, rfl, fun _ => rfl⟩
  | cons x rest ih =>
    obtain ⟨d, n⟩ := x
    rw [remarks] at h
    cases ht : Target.classify d.target c.origin s.options.schemeText with
    | error f =>
      rw [ht] at h
      cases h
    | ok t =>
      rw [ht] at h
      obtain ⟨z, hz, rfl⟩ := map_eq_ok_iff.1 h
      obtain ⟨hfindings, hasked, hlocals⟩ := ih hz
      cases t with
      | localPath path => exact ⟨by simp [Yield.append, remark, hfindings],
          by simp [Yield.append, remark, hasked], fun depth => by
            simp [Yield.append, remark, hlocals]⟩
      | remote url =>
        have hreason : SkipReason.notRecursive.text.toList ≠ SkipReason.localTarget.text.toList := by
          decide
        exact ⟨by simp [Yield.append, remark, hr, Yield.skipped, hfindings],
          by simp [Yield.append, remark, hr, Yield.skipped, hasked], fun depth => by
            simp [Yield.append, remark, hr, Yield.skipped, hlocals, Event.localTarget?, hreason]⟩

/-- The page of an import is asked for, and may be found to be missing. -/
theorem tells_replace (hr : s.options.recursive = false) (hc : c.canDescend = false) {d : Import}
    {url : Text} (hn : n.items = [.leaf n]) (hplan : Plan.ofNode s c n = .ok (.fetch d url))
    (h : replace s enter c n d url = .ok y) : Tells s c [n] y := by
  have hwalk : Node.walkAll [n] = [n] := by simp [Node.walk_of_leaf hn]
  have hfacts : y.asked = [url] ∧ (∀ x ∈ y.findings, x.url = some url) ∧
      y.events.filterMap (Event.localTarget? c.depth) = [] := by
    unfold replace at h
    split at h
    · cases h
    · cases h
      have hreason : SkipReason.failed.text.toList ≠ SkipReason.localTarget.text.toList := by decide
      refine ⟨rfl, ?_, ?_⟩
      · simp [Yield.skipped, Diagnostic.ofFault]
      · simp [Yield.skipped, Event.localTarget?, hreason]
    · rename_i children _
      obtain ⟨z, hz, rfl⟩ := map_eq_ok_iff.1 h
      rw [visit, if_neg (by simp [hc])] at hz
      split at hz
      · cases hz
      · rename_i w hw
        cases hz
        obtain ⟨hfindings, hasked, hlocals⟩ := eq_of_remarks hr hw
        refine ⟨rfl, ?_, ?_⟩
        · simp [hfindings]
        · simp [hlocals, Event.localTarget?]
  obtain ⟨hasked, hfindings, hlocals⟩ := hfacts
  refine ⟨fun u => ?_, fun u m hm hcycle => ?_, fun x hx => ?_, ?_⟩
  · rw [hasked, hwalk]
    simp only [List.mem_singleton, exists_eq_left, hplan, Except.ok.injEq, Plan.fetch.injEq]
    constructor
    · rintro rfl
      exact ⟨d, rfl, rfl⟩
    · rintro ⟨_, -, rfl⟩
      rfl
  · rw [hwalk, List.mem_singleton] at hm
    subst hm
    cases hplan.symm.trans hcycle
  · exact ⟨n, by simp [hwalk], _, hplan, (hfindings x hx).symm, by simp [hfindings x hx]⟩
  · rw [hlocals, hwalk]
    simp [hplan, Plan.localTarget?, Except.toOption]

theorem tells_leaf (hr : s.options.recursive = false) (hc : c.canDescend = false)
    (hn : n.items = [.leaf n]) (h : node s enter c n = .ok y) : Tells s c [n] y := by
  have hwalk : Node.walkAll [n] = [n] := by simp [Node.walk_of_leaf hn]
  rw [node_of_leaf hn] at h
  cases hplan : Plan.ofNode s c n with
  | error f =>
    rw [hplan] at h
    cases h
  | ok plan =>
    rw [hplan] at h
    cases plan with
    | fetch d url => exact tells_replace hr hc hn hplan h
    | nothing =>
      cases h
      refine ⟨?_, ?_, ?_, ?_⟩ <;>
        simp [hwalk, hplan, Plan.early, Plan.localTarget?, Except.toOption]
    | localTarget target =>
      cases h
      refine ⟨?_, ?_, ?_, ?_⟩ <;>
        simp [hwalk, hplan, Plan.early, Yield.skipped, Plan.localTarget?, Event.localTarget?,
          Except.toOption]
    | cycle url =>
      cases h
      have hreason : SkipReason.cycle.text.toList ≠ SkipReason.localTarget.text.toList := by decide
      refine ⟨?_, ?_, ?_, ?_⟩ <;>
        simp [hwalk, hplan, Plan.early, Yield.skipped, Plan.localTarget?, Event.localTarget?,
          Except.toOption, hreason, Plan.url?, Diagnostic.ofFault]

theorem tells_of_forall (hns : ∀ n ∈ ns, ∀ y, node s enter c n = .ok y → Tells s c [n] y)
    (h : nodes s enter c ns = .ok y) : Tells s c ns y := by
  induction ns generalizing y with
  | nil =>
    rw [nodes] at h
    cases h
    exact .nil s c
  | cons n ns ih =>
    obtain ⟨y₁, y₂, h₁, h₂, rfl⟩ := nodes_eq_ok_cons h
    exact (hns n List.mem_cons_self y₁ h₁).append
      (ih (fun m hm => hns m (List.mem_cons_of_mem n hm)) h₂)

/-- A pass that enters no page says of all nodes, however deep, what is planned for them. -/
theorem tells_node (hr : s.options.recursive = false) (hc : c.canDescend = false) (n : Node)
    (h : node s enter c n = .ok y) : Tells s c [n] y := by
  induction n using Node.induction generalizing y with
  | leaf n hn => exact tells_leaf hr hc hn h
  | block before hd children after ih =>
    rw [node_block] at h
    obtain ⟨z, hz, rfl⟩ := map_eq_ok_iff.1 h
    exact (tells_of_forall (fun n hn y hy => ih n hn hy) hz).inside _

theorem tells_nodes (hr : s.options.recursive = false) (hc : c.canDescend = false)
    (h : nodes s enter c ns = .ok y) : Tells s c ns y :=
  tells_of_forall (fun n _ _ hy => tells_node hr hc n hy) h

end OnePass

/-- Events of the walk are added as they are, in whatever order. -/
theorem Progress.Adds.perm_filterMap {α : Type} {y : Yield} {q : Progress} (h : Adds {} y q)
    {f : Event → Option α} (hf : ∀ e, e.isStep = false → f e = none) :
    (q.trace.filterMap f).Perm (y.events.filterMap f) := by
  have hsteps : (q.trace.filter Event.isStep).Perm (y.events.filter Event.isStep) := by
    rw [List.perm_iff_count]
    intro e
    by_cases he : e.isStep
    · rw [List.count_filter he, List.count_filter he]
      simpa using h.events e he
    · rw [List.count_eq_zero.2 (by simp [he]), List.count_eq_zero.2 (by simp [he])]
  have hdrop (es : List Event) : es.filterMap f = (es.filter Event.isStep).filterMap f := by
    rw [List.filterMap_filter]
    refine List.filterMap_congr fun e _ => ?_
    cases he : e.isStep with
    | true => simp
    | false => simp [hf e he]
  rw [hdrop, hdrop y.events]
  exact hsteps.filterMap f

/-- **Listing and running agree.** What the listing shows of a sheet as remote is what a run with the
default options asks for or finds to lead back to the sheet. What it shows as local is what such a
run leaves in place for being local, as often as it is shown. -/
theorem listing_agrees_with_run {call : InspectCall} {sheet : Sheet} {network : Network}
    {edits : List Edit} (hparse : Sheet.parse call.source call.origin = .ok sheet)
    (hlist : call.perform.crash = none)
    (hrun : (sheet.resolve { options := {}, network }).edits = .ok edits) :
    let p := (sheet.resolve { options := {}, network }).progress
    ∃ entries, Listing.Shows sheet entries call.perform.out ∧
      (∀ url, (∃ d, (d, .remote url) ∈ entries) ↔
        url ∈ p.ledger.requested ∨
          ∃ x ∈ p.diagnostics, x.rule = "cycle_detected" ∧ x.depth = 0 ∧ x.url = some url) ∧
      (entries.filterMap fun x => x.2.path?).Perm (p.trace.filterMap (Event.localTarget? 0)) := by
  intro p
  obtain ⟨entries, hshows⟩ : ∃ entries, Listing.Shows sheet entries call.perform.out := by
    unfold InspectCall.perform at hlist ⊢
    rw [hparse] at hlist ⊢
    dsimp only at hlist ⊢
    split at hlist
    · rename_i out htext
      obtain ⟨entries, hshows⟩ := Listing.exists_shows (congrArg Prod.snd htext)
      rw [htext] at hshows
      exact ⟨entries, hshows⟩
    · cases hlist
  let s : Setup := { options := {}, network }
  let c : Context := .atStart s.options sheet.origin
  obtain ⟨y, hy, -, -, hadd⟩ := Run.adds_edits (Nat.le_refl _) (Ledger.honest_empty _)
    (Sheet.ends_of_resolve hrun)
  have htells : OnePass.Tells s c sheet.children y := OnePass.tells_nodes rfl rfl hy
  have hasked (url : Text) : url ∈ p.ledger.requested ↔ url ∈ y.asked :=
    (hadd.asked url).trans (or_iff_right (by simp [Ledger.requested]))
  have hfound (x : Diagnostic) : x ∈ p.diagnostics ↔ x ∈ y.findings := by
    have hcount : p.diagnostics.count x = y.findings.count x :=
      (hadd.findings x).trans (Nat.zero_add _)
    rw [← List.count_pos_iff, ← List.count_pos_iff, hcount]
  refine ⟨entries, hshows, fun url => ?_, ?_⟩
  · have hentry : (∃ d, (d, Target.remote url) ∈ entries) ↔ ∃ n ∈ Node.walkAll sheet.children,
        ∃ plan, Plan.ofNode s c n = .ok plan ∧ plan.url? = some url := by
      simp only [hshows.mem_iff, c, Plan.url?_atStart s]
      constructor
      · rintro ⟨d, ⟨n, hn, hd⟩, ht⟩
        exact ⟨n, hn, d, hd, ht⟩
      · rintro ⟨n, hn, d, hd, ht⟩
        exact ⟨d, ⟨n, hn, hd⟩, ht⟩
    rw [hentry]
    constructor
    · rintro ⟨n, hn, plan, hplan, hurl⟩
      cases plan with
      | nothing | localTarget target => cases hurl
      | fetch d url' =>
        cases hurl
        exact .inl ((hasked url).2 ((htells.asked url).2 ⟨n, hn, d, hplan⟩))
      | cycle url' =>
        cases hurl
        exact .inr ⟨_, (hfound _).2 (htells.cycle url n hn hplan), rfl, rfl, rfl⟩
    · rintro (hmem | ⟨x, hx, -, -, hurl⟩)
      · obtain ⟨n, hn, d, hplan⟩ := (htells.asked url).1 ((hasked url).1 hmem)
        exact ⟨n, hn, _, hplan, rfl⟩
      · obtain ⟨n, hn, plan, hplan, hsame, -⟩ := htells.findings x ((hfound x).1 hx)
        exact ⟨n, hn, plan, hplan, hsame.trans hurl⟩
  · have hlocals : y.events.filterMap (Event.localTarget? 0) =
        entries.filterMap fun x => x.2.path? := by
      rw [hshows.paths]
      refine htells.locals.trans (List.filterMap_congr fun n _ => ?_)
      exact Plan.localTarget?_atStart s sheet.origin n
    rw [← hlocals]
    refine (hadd.perm_filterMap fun e he => ?_).symm
    cases e with
    | skipped => cases he
    | _ => rfl

/-- A sheet with imports in blocks, one of them local, one twice, and one that leads back. -/
theorem listing_agrees_with_run_nested :
    let call : InspectCall :=
      { source := ("@import 'a.css' print;@media x{@import url(//h/b);a{@import url(file:c);}}" ++
          "@import 'a.css';@import 'https://h/s.css';@IMPORT 'e'{}@import ;").toList
        origin := some "https://h/s.css".toList }
    let network := Network.ofPages [] [("https://h/a.css".toList, .body "@import 'd.css';".toList)]
    ∃ sheet edits, Sheet.parse call.source call.origin = .ok sheet ∧ call.perform.crash = none ∧
      (sheet.resolve { options := {}, network }).edits = .ok edits ∧
      let p := (sheet.resolve { options := {}, network }).progress
      ∃ entries, Listing.Shows sheet entries call.perform.out ∧
        (∀ url, (∃ d, (d, .remote url) ∈ entries) ↔
          url ∈ p.ledger.requested ∨
            ∃ x ∈ p.diagnostics, x.rule = "cycle_detected" ∧ x.depth = 0 ∧ x.url = some url) ∧
        (entries.filterMap fun x => x.2.path?).Perm
          (p.trace.filterMap (Event.localTarget? 0)) := by
  intro call network
  obtain ⟨sheet, hparse⟩ : ∃ sheet, Sheet.parse call.source call.origin = .ok sheet :=
    exists_eq_ok_iff.2 (by decide +kernel)
  have hlist : call.perform.crash.isNone = true := by decide +kernel
  have hends : ∀ sheet, Sheet.parse call.source call.origin = .ok sheet →
      ∃ edits, (sheet.resolve { options := {}, network }).edits = .ok edits := by
    intro sheet h
    refine exists_eq_ok_iff.2 ?_
    have hall : (Sheet.parse call.source call.origin).toOption.all (fun sheet =>
        (sheet.resolve { options := {}, network }).edits.isOk) = true := by decide +kernel
    rw [h] at hall
    exact hall
  obtain ⟨edits, hrun⟩ := hends sheet hparse
  have hcrash := Option.isNone_iff_eq_none.1 hlist
  exact ⟨sheet, edits, hparse, hcrash, hrun, listing_agrees_with_run hparse hcrash hrun⟩

end StyleSplice
