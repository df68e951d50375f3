import StyleSplice.Proofs.Resolve.Deeds

/-!
# Unbounded recursion ends

A run that may go as deep as it likes goes no deeper than the pages allow: no address comes up twice
on a path of the walk, and each address on the path beside that of the outermost sheet belongs to a
page with a sheet in it. So the walk ends by itself, whatever the pages import.
-/

namespace StyleSplice

/-- Whether the page answers with the text of a sheet. -/
def Page.isSheet (headers : Headers) (url : Text) (page : Page) : Bool :=
  match page.answer headers url with
  | .body text => (Sheet.parse text (some url)).isOk
  | _ => false

/-- The depth that an event of the walk tells of. -/
def Event.depth? : Event → Option Int
  | .resolved _ depth _ => some depth
  | .skipped _ depth _ => some depth
  | _ => none

theorem Event.depth?_of_not_isStep {e : Event} (h : e.isStep = false) : e.depth? = none := by
  cases e with
  | started => rfl
  | completed => rfl
  | failed => rfl
  | resolved => cases h
  | skipped => cases h

/-- Everything that the yield says has the given depth. -/
structure Yield.At (depth : Int) (y : Yield) : Prop where
  events : ∀ e ∈ y.events, e.depth? = some depth
  findings : ∀ x ∈ y.findings, x.depth = depth

theorem Yield.at_skipped (nodes : List Node) (c : Context) (target : Text) (reason : SkipReason)
    (fault : Option Fault) : Yield.At c.depth (.skipped nodes c target reason fault) where
  events := by simp [skipped, Event.depth?]
  findings := by
    cases fault <;> simp [skipped, Diagnostic.ofFault]

theorem Plan.at_early (c : Context) (plan : Plan) : Yield.At c.depth (plan.early c) := by
  cases plan with
  | nothing => exact ⟨by simp [early], by simp [early]⟩
  | localTarget target => exact Yield.at_skipped ..
  | cycle url => exact Yield.at_skipped ..
  | fetch d url => exact ⟨by simp [early], by simp [early]⟩

/-- Nothing was said of a greater depth than `limit`. -/
structure Progress.Shallow (limit : Int) (p : Progress) : Prop where
  events : ∀ e ∈ p.trace, ∀ k, e.depth? = some k → k ≤ limit
  findings : ∀ x ∈ p.diagnostics, x.depth ≤ limit

theorem Progress.Shallow.noting {limit depth : Int} {p : Progress} (h : p.Shallow limit)
    {y : Yield} (hy : y.At depth) (hd : depth ≤ limit) : (p.noting y).Shallow limit where
  events := by
    intro e he k hk
    rcases List.mem_append.1 he with he | he
    · exact h.events e he k hk
    · rw [hy.events e he] at hk
      cases hk
      exact hd
  findings := by
    intro x hx
    rcases List.mem_append.1 hx with hx | hx
    · exact h.findings x hx
    · rw [hy.findings x hx]
      exact hd

/-- What the path of a walk from a sheet at `origin` looks like. -/
structure Context.Sound (s : Setup) (origin : Option Text) (c : Context) : Prop where
  options : c.options = s.options
  nodup : c.stack.Nodup
  path : ∃ urls, c.stack = (known origin).toList ++ urls ∧ c.depth = urls.length ∧
    ∀ u ∈ urls, ∃ ns, s.content u = .ok (.ok ns)

theorem Context.sound_atStart (s : Setup) (origin : Option Text) :
    (Context.atStart s.options origin).Sound s origin where
  options := rfl
  nodup := by cases h : known origin <;> simp [atStart, h]
  path := ⟨[], by simp [atStart]⟩

/-- A descent adds an address that was not on the path. -/
theorem Context.Sound.descend {s : Setup} {origin : Option Text} {c : Context}
    {ns children : List Node} {url : Text} (h : c.Sound s origin) (leads : Leads s c ns url)
    (content : s.content url = .ok (.ok children)) : (c.descend url).Sound s origin where
  options := h.options
  nodup := by
    obtain ⟨d, n, -, -, hfresh⟩ := leads
    have hnew : url ∉ c.stack := by simpa [visited] using hfresh
    exact List.nodup_append.2 ⟨h.nodup, by simp, by grind⟩
  path := by
    obtain ⟨urls, hstack, hdepth, hurls⟩ := h.path
    refine ⟨urls ++ [url], by simp [Context.descend, hstack], by simp [Context.descend, hdepth], ?_⟩
    intro u hu
    rcases List.mem_append.1 hu with hu | hu
    · exact hurls u hu
    · rw [List.mem_singleton.1 hu]
      exact ⟨children, content⟩

theorem Enters.sound {s : Setup} {origin : Option Text} {ns ns' : List Node} {c : Context}
    (h : Enters s (.atStart s.options origin) ns c ns') : c.Sound s origin :=
  h.keep (fun _ _ _ _ hc leads content => hc.descend leads content)
    (Context.sound_atStart s origin)

theorem Context.Sound.depth_add {s : Setup} {origin : Option Text} {c : Context}
    (h : c.Sound s origin) :
    c.depth + (if (known origin).isSome then 1 else 0) = c.stack.length := by
  obtain ⟨urls, hstack, hdepth, -⟩ := h.path
  rw [hstack, hdepth]
  cases known origin <;> simp

/-- Content is the sheet of a page. -/
theorem Setup.exists_isSheet {s : Setup} {headers : Headers} {pages : List (Text × Page)}
    (hnet : s.network = .ofPages headers pages) {url : Text} {ns : List Node}
    (h : s.content url = .ok (.ok ns)) :
    ∃ page, (url, page) ∈ pages ∧ page.isSheet headers url := by
  obtain ⟨text, ha⟩ := answer_of_content h
  unfold content at h
  rw [ha] at h
  rw [hnet] at ha
  rcases Network.answer_ofPages headers pages url with ⟨page, hmem, hpage⟩ | hnone
  · refine ⟨page, hmem, ?_⟩
    rw [Page.isSheet, hpage.symm.trans ha]
    dsimp only at h ⊢
    split at h
    · cases h
    · rename_i sheet hsheet
      rw [hsheet]
      rfl
  · rw [ha] at hnone
    cases hnone

/-- A path is no longer than the table has pages with a sheet. -/
theorem Context.Sound.depth_le {s : Setup} {headers : Headers} {pages : List (Text × Page)}
    (hnet : s.network = .ofPages headers pages) {origin : Option Text} {c : Context}
    (h : c.Sound s origin) : c.depth ≤ pages.countP fun x => x.2.isSheet headers x.1 := by
  obtain ⟨urls, hstack, hdepth, hurls⟩ := h.path
  have hnodup : urls.Nodup := (List.nodup_append.1 (hstack ▸ h.nodup)).2.1
  have hsub : urls ⊆ (pages.filter fun x => x.2.isSheet headers x.1).map Prod.fst := by
    intro u hu
    obtain ⟨ns, hc⟩ := hurls u hu
    obtain ⟨page, hmem, hsheet⟩ := Setup.exists_isSheet hnet hc
    exact List.mem_map.2 ⟨(u, page), List.mem_filter.2 ⟨hmem, hsheet⟩, rfl⟩
  have hle := (List.subperm_of_subset hnodup hsub).length_le
  rw [List.length_map] at hle
  rw [hdepth, List.countP_eq_length_filter]
  exact hle

/-- A walk that descends wherever it can says nothing of a greater depth than its contexts have. -/
theorem Acts.shallow {s : Setup} {c : Context} {ns : List Node} {p q : Progress} {limit : Int}
    (hdepth : ∀ c' ns', Enters s c ns c' ns' → (c'.depth : Int) ≤ limit)
    (hdescends : ∀ c' ns', Enters s c ns c' ns' → c'.canDescend = true) (h : Acts s c ns p q)
    (hp : p.ledger.Honest s.network) (hshallow : p.Shallow limit) : q.Shallow limit := by
  refine (h.keep (P := fun p => p.ledger.Honest s.network ∧ p.Shallow limit) ?_
    ⟨hp, hshallow⟩).2
  intro c' ns' p q henters hp hdeed
  refine ⟨hdeed.honest hp.1, ?_⟩
  cases hdeed with
  | remain mem plan_eq idle => exact hp.2.noting (Plan.at_early c' _) (hdepth c' ns' henters)
  | @request n d url l events mem plan_eq granted =>
    obtain ⟨l', events', hr, -, -, hsteps⟩ := hp.1.request url
    rw [granted] at hr
    cases hr
    refine ⟨fun e he k hk => ?_, hp.2.findings⟩
    rcases List.mem_append.1 he with he | he
    · exact hp.2.events e he k hk
    · rw [Event.depth?_of_not_isStep (hsteps e he)] at hk
      cases hk
  | leave mem plan_eq content => exact hp.2.noting (Yield.at_skipped ..) (hdepth c' ns' henters)
  | replace mem plan_eq content =>
    exact hp.2.noting ⟨by simp [Event.depth?], by simp⟩ (hdepth c' ns' henters)
  | remark leads content stays found meant =>
    rw [hdescends c' ns' henters] at stays
    cases stays

namespace Run

variable {α β : Type} {s : Setup} {p : Progress}

/-- The second computation ends like the first, unless the first goes too deep. -/
def Outlasts (m m' : Run α) (p : Progress) : Prop :=
  (∃ q, Ends m p (.error .tooDeep) q) ∨ m'.outcome p = m.outcome p

theorem Outlasts.refl (m : Run α) (p : Progress) : Outlasts m m p := .inr rfl

theorem Outlasts.bind {m m' : Run α} {f f' : α → Run β} (h : Outlasts m m' p)
    (hf : ∀ a q, Outlasts (f a) (f' a) q) : Outlasts (m >>= f) (m' >>= f') p := by
  rcases h with ⟨q, hq⟩ | h
  · exact .inl ⟨q, ends_bind_error.2 (.inl hq)⟩
  · unfold Outlasts
    rw [outcome_bind, outcome_bind, h]
    rcases hm : m.outcome p with ⟨_ | a, r⟩
    · exact .inr rfl
    · refine (hf a r).imp (fun ⟨q, hq⟩ => ⟨q, ?_⟩) id
      exact ends_bind_error.2 (.inr ⟨a, r, hm, hq⟩)

variable {descend descend' : Context → List Node → Run (List Node)} {c : Context}

theorem outlasts_inline (hd : ∀ c ns p, Outlasts (descend c ns) (descend' c ns) p) (n : Node)
    (o : Order) : Outlasts (inline s descend c n o) (inline s descend' c n o) p := by
  obtain ⟨d, url⟩ := o
  unfold inline
  refine .bind (.refl _ p) fun page q => ?_
  cases page with
  | error f => exact .refl _ q
  | ok text =>
    dsimp only
    cases Sheet.parse text (some url) with
    | error f => exact .refl _ q
    | ok sheet =>
      dsimp only
      by_cases hc : c.canDescend
      · simp only [hc, if_true]
        split
        all_goals
          refine .bind (.refl _ q) fun children q => ?_
          exact .bind (hd _ _ q) fun content q => .refl _ q
      · simp only [hc, Bool.false_eq_true, if_false]
        exact .refl _ q

theorem outlasts_editNodes {ns : List Node} {replace replace' : Context → Node → Order → Run Edit}
    (hn : ∀ n ∈ ns, ∀ o p, Outlasts (editNode s replace c n o) (editNode s replace' c n o) p)
    (os : List (Option Order)) :
    Outlasts (editNodes s replace c ns os) (editNodes s replace' c ns os) p := by
  induction ns generalizing os p with
  | nil =>
    rw [editNodes, editNodes]
    · exact .refl _ p
    all_goals simp
  | cons n ns ih =>
    cases os with
    | nil =>
      rw [editNodes, editNodes]
      · exact .refl _ p
      all_goals simp
    | cons o os =>
      rw [editNodes, editNodes]
      refine .bind (hn n (by simp) o p) fun e q => ?_
      exact .bind (ih (fun m hm => hn m (by simp [hm])) os) fun es q => .refl _ q

theorem outlasts_editNode {replace replace' : Context → Node → Order → Run Edit}
    (hr : ∀ n o p, Outlasts (replace c n o) (replace' c n o) p) (n : Node) (o : Option Order) :
    Outlasts (editNode s replace c n o) (editNode s replace' c n o) p := by
  induction n using Node.induction generalizing o p with
  | leaf n hn =>
    cases o with
    | none =>
      rw [editNode_leaf hn, editNode_leaf hn]
      exact .refl _ p
    | some o =>
      rw [editNode_order, editNode_order]
      exact hr n o p
  | block before h children after ih =>
    cases o with
    | none =>
      rw [editNode_block, editNode_block]
      split
      · refine .bind (.refl _ p) fun u q => .bind (.refl _ q) fun os q => ?_
        exact .bind (outlasts_editNodes (fun m hm o p => ih m hm o) os) fun es q => .refl _ q
      · exact .refl _ p
    | some o =>
      rw [editNode_order, editNode_order]
      exact hr _ o p

/-- More fuel changes nothing for a walk that does not go too deep. -/
theorem outlasts_edits {fuel fuel' : Nat} (hf : fuel ≤ fuel') (c : Context) (ns : List Node)
    (p : Progress) : Outlasts (edits s fuel c ns) (edits s fuel' c ns) p := by
  induction fuel generalizing fuel' c ns p with
  | zero => exact .inl ⟨p, ends_halt.2 ⟨rfl, rfl⟩⟩
  | succ fuel ih =>
    obtain ⟨fuel', rfl⟩ : ∃ k, fuel' = k + 1 := ⟨fuel' - 1, by omega⟩
    rw [edits, edits]
    refine .bind (.refl _ p) fun u q => .bind (.refl _ q) fun os q => ?_
    refine outlasts_editNodes (fun n _ o p => outlasts_editNode (fun n o p => ?_) n o) os
    refine outlasts_inline (fun c ns p => ?_) n o
    exact .bind (ih (Nat.le_of_succ_le_succ hf) c ns p) fun es q => .refl _ q

end Run

/-- A run over pages of a table that nobody aborts, in which no page stays silent, ends with a
result, or because a reference is refused or a request breaks down. -/
theorem Sheet.fault_of_resolve {s : Setup} {headers : Headers} {pages : List (Text × Page)}
    (hnet : s.network = .ofPages headers pages) (hpages : ∀ x ∈ pages, x.2 ≠ .silence)
    (ha : s.abortAfter = none) {sheet : Sheet} {e : Halt} (h : (sheet.resolve s).edits = .error e) :
    (∃ f, e = .badUrl f) ∨ ∃ m, e = .crashed m := by
  have hs : s.network.Bounded := hnet ▸ Network.bounded_ofPages headers pages
  cases (sheet.meets_resolve hs).2 e h ha with
  | stumble refused => exact .inl ⟨_, rfl⟩
  | @page c ns url _ enters leads broken =>
    rcases Setup.content_error broken with hf | ⟨m, rfl, -⟩ | ⟨-, ha⟩
    · exact .inl hf
    · exact .inr ⟨m, rfl⟩
    · rw [hnet] at ha
      exact absurd ha (Network.responds_ofPages hpages url)

/-- An unbounded run over pages that answer ends, whatever they import: no budget of descents above
that of the run changes how it ends. Everything that it does belongs to contexts that it enters; on
the path to such a context no address comes up twice, and the path is no longer than there are pages
with a sheet. The same bound holds for the depth of all that is said. -/
theorem resolve_ends_within_pages {s : Setup} {headers : Headers} {pages : List (Text × Page)}
    (hnet : s.network = .ofPages headers pages) (hpages : ∀ x ∈ pages, x.2 ≠ .silence)
    (ha : s.abortAfter = none) (hr : s.options.recursive = true) (hm : s.options.maxDepth = none)
    (sheet : Sheet) :
    let start := Context.atStart s.options sheet.origin
    let sheets := pages.countP fun x => x.2.isSheet headers x.1
    (∀ fuel, s.network.size + 2 ≤ fuel →
      (Run.edits s fuel start sheet.children).outcome {} =
        ((sheet.resolve s).edits, (sheet.resolve s).progress)) ∧
    (∀ e, (sheet.resolve s).edits = .error e → (∃ f, e = .badUrl f) ∨ ∃ m, e = .crashed m) ∧
    Acts s start sheet.children {} (sheet.resolve s).progress ∧
    (∀ c ns, Enters s start sheet.children c ns →
      c.stack.Nodup ∧ c.depth + (if (known sheet.origin).isSome then 1 else 0) = c.stack.length ∧
        c.depth ≤ sheets) ∧
    (∀ e ∈ (sheet.resolve s).progress.trace, ∀ k, e.depth? = some k → k ≤ sheets) ∧
    ∀ x ∈ (sheet.resolve s).progress.diagnostics, x.depth ≤ sheets := by
  intro start sheets
  have hend : Run.Ends (Run.edits s (s.network.size + 2) start sheet.children) {}
      (sheet.resolve s).edits (sheet.resolve s).progress := Sheet.ends_of_resolve rfl
  have hs : s.network.Bounded := hnet ▸ Network.bounded_ofPages headers pages
  have hacts : Acts s start sheet.children {} (sheet.resolve s).progress :=
    (sheet.meets_resolve hs).1
  have hsound : ∀ c ns, Enters s start sheet.children c ns → c.Sound s sheet.origin :=
    fun c ns h => h.sound
  have hshallow : (sheet.resolve s).progress.Shallow sheets := by
    refine hacts.shallow (fun c ns h => ?_) (fun c ns h => ?_) (Ledger.honest_empty _)
      ⟨by simp, by simp⟩
    · exact_mod_cast (hsound c ns h).depth_le hnet
    · rw [Context.canDescend, (hsound c ns h).options, hr, hm]
      rfl
  refine ⟨fun fuel hf => ?_, fun e => Sheet.fault_of_resolve hnet hpages ha, hacts,
    fun c ns h => ⟨(hsound c ns h).nodup, (hsound c ns h).depth_add, (hsound c ns h).depth_le hnet⟩,
    hshallow.events, hshallow.findings⟩
  rcases Run.outlasts_edits hf start sheet.children {} with ⟨q, hq⟩ | h
  · have he : (sheet.resolve s).edits = .error .tooDeep :=
      congrArg Prod.fst (hend.symm.trans hq)
    rcases Sheet.fault_of_resolve hnet hpages ha he with ⟨f, hf⟩ | ⟨m, hm⟩
    · cases hf
    · cases hm
  · exact h.trans hend

/-- Two pages that import each other and themselves, in a sheet with an address. -/
theorem resolve_ends_within_pages_cycle :
    let pages : List (Text × Page) :=
      [("https://h/a.css".toList, .body "@import 'b.css';@import 'main.css';a\x7b\x7d".toList),
        ("https://h/b.css".toList, .body "@media x\x7b@import 'a.css';@import 'b.css'\x7d".toList),
        ("https://h/c.css".toList, .body "\x7b".toList)]
    let s : Setup := { options := { recursive := true }, network := .ofPages [] pages }
    let sheet : Sheet :=
      ⟨[.statement [] ⟨"import".toList, "'a.css'".toList, [' '], []⟩ true,
        .statement [] ⟨"import".toList, "'c.css'".toList, [' '], []⟩ true], [],
        some "https://h/main.css".toList⟩
    (∀ x ∈ pages, x.2 ≠ .silence) ∧ s.abortAfter = none ∧ s.options.recursive = true ∧
      s.options.maxDepth = none ∧ (pages.countP fun x => x.2.isSheet [] x.1) = 2 ∧
      (∀ c ns, Enters s (.atStart s.options sheet.origin) sheet.children c ns →
        c.stack.Nodup ∧ c.depth + 1 = c.stack.length ∧ c.depth ≤ 2) ∧
      (∀ e ∈ (sheet.resolve s).progress.trace, ∀ k, e.depth? = some k → k ≤ 2) ∧
      (∀ x ∈ (sheet.resolve s).progress.diagnostics, x.depth ≤ 2) ∧
      (sheet.resolve s).progress.diagnostics.map Diagnostic.depth = [1, 2, 2, 0] := by
  intro pages s sheet
  have hpages : ∀ x ∈ pages, x.2 ≠ .silence := by decide
  have hcount : (pages.countP fun x => x.2.isSheet [] x.1) = 2 := by decide +kernel
  have horigin : (known sheet.origin).isSome = true := by decide +kernel
  obtain ⟨-, -, -, hcontexts, hevents, hfindings⟩ :=
    resolve_ends_within_pages (s := s) rfl hpages rfl rfl rfl sheet
  simp only [horigin, if_true] at hcontexts
  rw [hcount] at hcontexts hevents hfindings
  rw [Int.ofNat_two] at hevents hfindings
  exact ⟨hpages, rfl, rfl, rfl, hcount, hcontexts, hevents, hfindings, by decide +kernel⟩

end StyleSplice
