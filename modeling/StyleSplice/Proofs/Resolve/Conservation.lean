import Mathlib.Algebra.Order.Ring.Int
import StyleSplice.Proofs.Resolve.Deeds

/-!
# No import is lost

An import is either replaced by the page it leads to, and one event says so, or it is still there in
the result. A page brings its own imports with it, once for every event that tells of it. So the
imports of the result can be counted from those of the sheet, those of the pages and the events.
-/

namespace StyleSplice

/-- The heads of the imports among some nodes, at any depth. -/
def Import.headsIn (ns : List Node) : List AtHead :=
  (findAll ns none).filterMap fun x => x.2.atHead?

/-- The nodes of the page that took the place of an import, by the event that tells of it. -/
def Setup.nodesTold (s : Setup) : Event → List Node
  | .resolved url _ _ => ((s.page? url).map Sheet.children).getD []
  | _ => []

/-- No character set among the nodes has a block with anything in it. -/
def Node.CharsetsBare (ns : List Node) : Prop :=
  ∀ n ∈ ns, Run.isCharset n = true → n.children = []

/-- A walk comes to an import with the given head, whose page takes its place, and the event is the
one that tells of it. -/
inductive Replaced (s : Setup) (c : Context) (ns : List Node) : AtHead × Event → Prop
  | intro {c' : Context} {ns' children : List Node} {n : Node} {h : AtHead} {d : Import}
    {url : Text} (enters : Enters s c ns c' ns') (mem : n ∈ Node.walkAll ns')
    (head : n.atHead? = some h) (plan_eq : Plan.ofNode s c' n = .ok (.fetch d url))
    (content : s.content url = .ok (.ok children)) :
    Replaced s c ns (h, .resolved url c'.depth d.media)

theorem Replaced.inside {s : Setup} {c : Context} {ns children : List Node} {url : Text}
    {x : AtHead × Event} (leads : Leads s c ns url) (content : s.content url = .ok (.ok children))
    (enters : c.canDescend = true) (h : Replaced s (c.descend url) children x) :
    Replaced s c ns x := by
  cases h with
  | intro inner mem head plan_eq content' =>
    exact .intro (.inside leads content enters inner) mem head plan_eq content'

namespace Import

variable {n : Node} {ms ns : List Node}

/-- The address of its sheet is all that an import has besides what its parameters say. -/
theorem ofNode?_eq_map (n : Node) (origin : Option Text) :
    ofNode? n origin = (ofNode? n none).map fun d => { d with origin } := by
  cases n with
  | statement before h semicolon =>
    unfold ofNode? decode?
    dsimp only
    split
    · cases rawTarget? h.params <;> rfl
    · rfl
  | _ => rfl

theorem isSome_ofNode? (n : Node) (origin : Option Text) :
    (ofNode? n origin).isSome = (ofNode? n none).isSome := by
  rw [ofNode?_eq_map, Option.isSome_map]

theorem exists_atHead_of_ofNode? {origin : Option Text} {d : Import}
    (h : ofNode? n origin = some d) : ∃ head, n.atHead? = some head := by
  obtain ⟨before, head, semicolon, rfl, -⟩ := ofNode?_eq_some_iff.1 h
  exact ⟨head, rfl⟩

theorem headsIn_eq (ns : List Node) :
    headsIn ns = (Node.walkAll ns).filterMap fun n => (ofNode? n none).bind fun _ => n.atHead? := by
  unfold headsIn findAll
  rw [List.filterMap_filterMap]
  congr 1
  funext n
  cases ofNode? n none <;> rfl

/-- There are as many heads as imports, wherever the nodes come from. -/
theorem length_headsIn (ns : List Node) (origin : Option Text) :
    (headsIn ns).length = (findAll ns origin).length := by
  rw [headsIn_eq, findAll, List.length_filterMap_eq_countP, List.length_filterMap_eq_countP]
  congr 1
  funext n
  rw [Option.isSome_map, isSome_ofNode?]
  cases hd : ofNode? n none with
  | none => rfl
  | some d =>
    obtain ⟨head, hh⟩ := exists_atHead_of_ofNode? hd
    rw [Option.bind_some, hh]
    rfl

@[simp] theorem headsIn_nil : headsIn [] = [] := by simp [headsIn_eq]

@[simp] theorem headsIn_append : headsIn (ms ++ ns) = headsIn ms ++ headsIn ns := by
  simp [headsIn_eq]

theorem headsIn_cons : headsIn (n :: ns) = headsIn [n] ++ headsIn ns := by
  rw [← headsIn_append, List.singleton_append]

@[simp] theorem headsIn_block {before after : Text} {h : Head} {children : List Node} :
    headsIn [.block before h children after] = headsIn children := by
  rw [headsIn_eq, headsIn_eq, Node.walkAll_cons, Node.walkAll_nil, List.append_nil, Node.walk]
  rfl

theorem headsIn_leaf (hn : n.walk = [n]) :
    headsIn [n] = ((ofNode? n none).bind fun _ => n.atHead?).toList := by
  rw [headsIn_eq, Node.walkAll_cons, Node.walkAll_nil, hn, List.append_nil, List.filterMap_cons,
    List.filterMap_nil]
  cases (ofNode? n none).bind fun _ => n.atHead? <;> rfl

theorem headsIn_of_import {origin : Option Text} {d : Import} {head : AtHead}
    (hd : ofNode? n origin = some d) (hh : n.atHead? = some head) : headsIn [n] = [head] := by
  have hsome := isSome_ofNode? n origin
  rw [hd, Option.isSome_some] at hsome
  obtain ⟨d', hd'⟩ := Option.isSome_iff_exists.1 hsome.symm
  cases n with
  | block => cases hd
  | _ => rw [headsIn_leaf rfl, hd', hh]; rfl

theorem headsIn_withBefore (before : Text) (n : Node) :
    headsIn [n.withBefore before] = headsIn [n] := by
  cases n with
  | block => rw [Node.withBefore, headsIn_block, headsIn_block]
  | _ => rw [Node.withBefore, headsIn_leaf rfl, headsIn_leaf rfl]; rfl

theorem headsIn_leadWith (before : Text) (ns : List Node) :
    headsIn (Node.leadWith before ns) = headsIn ns := by
  cases ns with
  | nil => rfl
  | cons n ns => rw [Node.leadWith, headsIn_cons, headsIn_withBefore, ← headsIn_cons]

theorem headsIn_wrapIn (h : AtHead) (ns : List Node) :
    headsIn [Node.wrapIn h ns] = headsIn ns := by
  unfold Node.wrapIn
  rw [headsIn_block]
  split
  · split
    · exact headsIn_leadWith _ _
    · rfl
  · rfl

theorem headsIn_wrap (d : Import) (ns : List Node) : headsIn (d.wrap ns) = headsIn ns :=
  d.wrap_keeps (P := fun ms => headsIn ms = headsIn ns)
    (fun h _ _ hms => (headsIn_wrapIn h _).trans hms) rfl

theorem headsIn_of_isCharset (hc : Run.isCharset n = true) (hn : n.children = []) :
    headsIn [n] = [] := by
  cases n with
  | block before h children after =>
    rw [headsIn_block, show children = [] from hn, headsIn_nil]
  | statement before h semicolon =>
    have hname : h.name.lower = "charset".toList := eq_of_beq hc
    have hnone : ofNode? (.statement before h semicolon) none = none :=
      if_neg (hname ▸ by decide)
    rw [headsIn_leaf rfl, hnone]
    rfl
  | _ => cases hc

/-- Leaving out character sets loses no import. -/
theorem headsIn_filter (h : Node.CharsetsBare ns) :
    headsIn (ns.filter fun m => !Run.isCharset m) = headsIn ns := by
  induction ns with
  | nil => rfl
  | cons n ns ih =>
    have ih := ih fun m hm => h m (List.mem_cons_of_mem _ hm)
    cases hc : Run.isCharset n with
    | false => rw [List.filter_cons_of_pos (by simp [hc]), headsIn_cons, ih, ← headsIn_cons]
    | true =>
      rw [List.filter_cons_of_neg (by simp [hc]), ih, headsIn_cons,
        headsIn_of_isCharset hc (h n (by simp) hc), List.nil_append]

/-- Leaving out nodes adds no import. -/
theorem headsIn_filter_subset (keep : Node → Bool) : headsIn (ns.filter keep) ⊆ headsIn ns := by
  induction ns with
  | nil => exact List.Subset.refl _
  | cons n ns ih =>
    rw [headsIn_cons]
    cases hk : keep n with
    | false =>
      rw [List.filter_cons_of_neg (by simp [hk])]
      exact List.subset_append_of_subset_right _ ih
    | true =>
      rw [List.filter_cons_of_pos hk, headsIn_cons]
      exact List.append_subset_of_subset_of_subset (List.subset_append_left _ _)
        (List.subset_append_of_subset_right _ ih)

theorem headsIn_replacement (d : Import) (n : Node) (h : Node.CharsetsBare ns) :
    headsIn (Run.replacement d n ns) = headsIn ns := by
  rw [Run.replacement, headsIn_leadWith, headsIn_wrap, headsIn_filter h]

end Import

namespace Node

variable {ms ns : List Node}

theorem charsetsBare_append :
    CharsetsBare (ms ++ ns) ↔ CharsetsBare ms ∧ CharsetsBare ns := by
  simp [CharsetsBare, or_imp, forall_and]

theorem isCharset_withBefore (before : Text) (n : Node) :
    Run.isCharset (n.withBefore before) = Run.isCharset n := by
  cases n with
  | block before h children after => cases h <;> rfl
  | _ => rfl

theorem isCharset_wrapIn {d : Import} {h : AtHead} (hh : h ∈ d.wrappers) (ns : List Node) :
    Run.isCharset (wrapIn h ns) = false := by
  obtain ⟨name, hname, condition, rfl⟩ := Import.exists_of_mem_wrappers hh
  have hlower : ∀ name ∈ ["layer", "supports", "media"],
      (Text.lower name.toList == "charset".toList) = false := by decide
  exact hlower name hname

/-- What takes the place of an import has no character set at all. -/
theorem charsetsBare_replacement (d : Import) (n : Node) (ns : List Node) :
    CharsetsBare (Run.replacement d n ns) := by
  have hwrap : ∀ m ∈ d.wrap (ns.filter fun m => !Run.isCharset m), Run.isCharset m = false := by
    refine d.wrap_keeps (P := fun ns => ∀ m ∈ ns, Run.isCharset m = false) ?_ (by simp)
    intro h hh ns _ m hm
    rw [List.mem_singleton.1 hm]
    exact isCharset_wrapIn hh ns
  intro m hm hc
  unfold Run.replacement at hm
  generalize d.wrap (ns.filter fun m => !Run.isCharset m) = ms at hm hwrap
  cases ms with
  | nil => cases hm
  | cons k ms =>
    rcases List.mem_cons.1 hm with rfl | hm
    · rw [isCharset_withBefore, hwrap k (by simp)] at hc
      cases hc
    · rw [hwrap m (List.mem_cons_of_mem _ hm)] at hc
      cases hc

end Node

/-- The character sets of a page hold nothing. -/
def Setup.Plain (s : Setup) (url : Text) : Prop :=
  ∀ page, s.page? url = some page → Node.CharsetsBare page.children

instance (ns : List Node) : Decidable (Node.CharsetsBare ns) :=
  decidable_of_iff (∀ n ∈ ns, Run.isCharset n = true → n.children.isEmpty = true)
    (by simp [Node.CharsetsBare])

instance (s : Setup) (url : Text) : Decidable (s.Plain url) :=
  inferInstanceAs (Decidable (∀ page ∈ s.page? url, Node.CharsetsBare page.children))

/-- What becomes of the imports among the nodes `ms` of a walk over `ns`: with those of the pages
that came in, they are the imports that are left and those that were replaced. -/
structure Yield.Balances (s : Setup) (c : Context) (ns ms : List Node) (y : Yield)
    (replaced : List (AtHead × Event)) : Prop where
  told : replaced.map Prod.snd = y.events.filter fun e => e.kind == .resolved
  sound : ∀ x ∈ replaced, Replaced s c ns x
  heads : ∀ h, (Import.headsIn y.nodes).count h + (replaced.map Prod.fst).count h =
    (Import.headsIn ms).count h +
      ((replaced.map Prod.snd).flatMap fun e => Import.headsIn (s.nodesTold e)).count h

namespace Yield.Balances

variable {s : Setup} {c : Context} {ns ms ms' : List Node} {y z : Yield}
  {replaced replaced' : List (AtHead × Event)}

/-- Nodes stay, and no event tells of a replacement. -/
theorem keep (he : ∀ e ∈ y.events, e.kind ≠ .resolved) (hn : y.nodes = ms) :
    Balances s c ns ms y [] where
  told := by simpa using fun e h => he e h
  sound := by simp
  heads := by simp [hn]

theorem append (h : Balances s c ns ms y replaced) (h' : Balances s c ns ms' z replaced') :
    Balances s c ns (ms ++ ms') (y.append z) (replaced ++ replaced') where
  told := by simp [Yield.append, h.told, h'.told]
  sound := by
    intro x hx
    rcases List.mem_append.1 hx with hx | hx
    · exact h.sound x hx
    · exact h'.sound x hx
  heads a := by
    have := h.heads a
    have := h'.heads a
    simp only [Yield.append, Import.headsIn_append, List.map_append, List.flatMap_append,
      List.count_append] at *
    omega

end Yield.Balances

namespace OnePass

variable {s : Setup} {enter : Context → List Node → Except Halt Yield} {c : Context} {y : Yield}
  {n : Node} {ns ms : List Node}

theorem charsetsBare_node (h : node s enter c n = .ok y) (hn : Node.CharsetsBare [n]) :
    Node.CharsetsBare y.nodes := by
  cases n with
  | block before hd children after =>
    rw [node_block] at h
    obtain ⟨z, hz, rfl⟩ := map_eq_ok_iff.1 h
    intro m hm hc
    rw [List.mem_singleton.1 hm] at hc ⊢
    have hempty : children = [] :=
      hn (.block before hd children after) (by simp) (by cases hd <;> exact hc)
    rw [hempty, nodes] at hz
    cases hz
    rfl
  | _ =>
    rw [node_of_leaf (by simp [Node.items])] at h
    split at h
    · cases h
    · unfold replace at h
      split at h
      · cases h
      · cases h
        exact hn
      · obtain ⟨z, -, rfl⟩ := map_eq_ok_iff.1 h
        exact Node.charsetsBare_replacement _ _ _
    · cases h
      exact hn

theorem charsetsBare_nodes (h : nodes s enter c ns = .ok y) (hns : Node.CharsetsBare ns) :
    Node.CharsetsBare y.nodes := by
  induction ns generalizing y with
  | nil =>
    rw [nodes] at h
    cases h
    exact hns
  | cons n ns ih =>
    obtain ⟨y₁, y₂, h₁, h₂, rfl⟩ := nodes_eq_ok_cons h
    rw [← List.singleton_append, Node.charsetsBare_append] at hns
    exact Node.charsetsBare_append.2 ⟨charsetsBare_node h₁ hns.1, ih h₂ hns.2⟩

theorem remarks_kind {found : List (Import × Node)} (h : remarks s c found = .ok y) :
    ∀ e ∈ y.events, e.kind ≠ .resolved := by
  induction found generalizing y with
  | nil =>
    cases h
    simp
  | cons x rest ih =>
    obtain ⟨d, n⟩ := x
    rw [remarks] at h
    split at h
    · cases h
    · rename_i target ht
      obtain ⟨z, hz, rfl⟩ := map_eq_ok_iff.1 h
      intro e he
      rcases List.mem_append.1 he with he | he
      · cases target with
        | localPath path => cases he
        | remote url =>
          unfold remark at he
          dsimp only at he
          split at he <;> simp [List.mem_singleton.1 he, Event.kind]
      · exact ih hz e he

/-- What a walk does to the imports that it goes over balances. -/
def Balancing (s : Setup) (enter : Context → List Node → Except Halt Yield) : Prop :=
  ∀ c ns y, enter c ns = .ok y → (Node.CharsetsBare ns → Node.CharsetsBare y.nodes) ∧
    ((∀ url ∈ y.asked, s.Plain url) → ∃ replaced, y.Balances s c ns ns replaced)

theorem balances_visit (he : Balancing s enter) {url : Text} {children : List Node}
    (leads : Leads s c ns url) (content : s.content url = .ok (.ok children))
    (h : visit s enter c url children = .ok y) :
    (Node.CharsetsBare children → Node.CharsetsBare y.nodes) ∧
      ((∀ url ∈ y.asked, s.Plain url) → ∃ replaced, y.Balances s c ns children replaced) := by
  unfold visit at h
  dsimp only at h
  split at h
  · rename_i hc
    obtain ⟨hbare, hbal⟩ := he _ _ _ h
    refine ⟨hbare, fun hp => ?_⟩
    obtain ⟨replaced, hr⟩ := hbal hp
    exact ⟨replaced, hr.told, fun x hx => (hr.sound x hx).inside leads content hc, hr.heads⟩
  · split at h
    · cases h
    · rename_i z hz
      cases h
      have hkind := remarks_kind hz
      exact ⟨id, fun _ => ⟨[], .keep hkind rfl⟩⟩

/-- A page that takes the place of an import brings its imports with it. -/
theorem balances_replace (hoff : s.options.anchorReferences = false) (he : Balancing s enter)
    (hn : n ∈ Node.walkAll ns) {d : Import} {url : Text}
    (hplan : Plan.ofNode s c n = .ok (.fetch d url)) (h : replace s enter c n d url = .ok y)
    (hp : ∀ url ∈ y.asked, s.Plain url) : ∃ replaced, y.Balances s c ns [n] replaced := by
  unfold replace at h
  split at h
  · cases h
  · cases h
    exact ⟨[], .keep (by simp [Yield.skipped, Event.kind]) rfl⟩
  · rename_i children content
    obtain ⟨z, hz, rfl⟩ := map_eq_ok_iff.1 h
    obtain ⟨page, hpage, rfl⟩ := Setup.content_of_off hoff content
    obtain ⟨hbare, hbal⟩ := balances_visit he (leads_of_fetch hn hplan) content hz
    obtain ⟨replaced, hr⟩ := hbal fun u hu => hp u (List.mem_cons_of_mem _ hu)
    obtain ⟨hd, -⟩ := Plan.ofNode_fetch_iff.1 hplan
    obtain ⟨head, hhead⟩ := Import.exists_atHead_of_ofNode? hd
    have hnodes := Import.headsIn_replacement d n (hbare (hp url List.mem_cons_self page hpage))
    refine ⟨replaced ++ [(head, .resolved url c.depth d.media)], ?_, ?_, fun a => ?_⟩
    · simp [hr.told, Event.kind]
    · intro x hx
      rcases List.mem_append.1 hx with hx | hx
      · exact hr.sound x hx
      · rw [List.mem_singleton.1 hx]
        exact .intro (.refl c ns) hn hhead hplan content
    · have := hr.heads a
      have htold : s.nodesTold (.resolved url c.depth d.media) = page.children := by
        rw [Setup.nodesTold, hpage]
        rfl
      simp only [hnodes, Import.headsIn_of_import hd hhead, List.map_append, List.map_cons,
        List.map_nil, List.flatMap_append, List.flatMap_cons, List.flatMap_nil, List.append_nil,
        htold, List.count_append]
      omega

theorem balances_nodes (hnode : ∀ n ∈ ms, ∀ y, node s enter c n = .ok y →
      (∀ url ∈ y.asked, s.Plain url) → ∃ replaced, y.Balances s c ns [n] replaced)
    (h : nodes s enter c ms = .ok y) (hp : ∀ url ∈ y.asked, s.Plain url) :
    ∃ replaced, y.Balances s c ns ms replaced := by
  induction ms generalizing y with
  | nil =>
    rw [nodes] at h
    cases h
    exact ⟨[], .keep (by simp) rfl⟩
  | cons n ms ih =>
    obtain ⟨y₁, y₂, h₁, h₂, rfl⟩ := nodes_eq_ok_cons h
    obtain ⟨r₁, hr₁⟩ := hnode n (by simp) y₁ h₁ fun u hu => hp u (List.mem_append_left _ hu)
    obtain ⟨r₂, hr₂⟩ := ih (fun m hm => hnode m (by simp [hm])) h₂
      fun u hu => hp u (List.mem_append_right _ hu)
    exact ⟨r₁ ++ r₂, hr₁.append hr₂⟩

theorem balances_node (hoff : s.options.anchorReferences = false) (he : Balancing s enter)
    (hsub : ∀ m ∈ n.walk, m ∈ Node.walkAll ns) (h : node s enter c n = .ok y)
    (hp : ∀ url ∈ y.asked, s.Plain url) : ∃ replaced, y.Balances s c ns [n] replaced := by
  induction n using Node.induction generalizing y with
  | leaf n hn =>
    rw [node_of_leaf hn] at h
    split at h
    · cases h
    · rename_i d url hplan
      exact balances_replace hoff he (hsub n n.mem_walk_self) hplan h hp
    · rename_i plan hfetch hplan
      cases h
      refine ⟨[], .keep ?_ rfl⟩
      cases plan with
      | fetch d url => exact absurd rfl (hfetch d url)
      | _ => simp [Plan.early, Yield.skipped, Event.kind]
  | block before hd children after ih =>
    rw [node_block] at h
    obtain ⟨z, hz, rfl⟩ := map_eq_ok_iff.1 h
    have hwalk : ∀ m ∈ Node.walkAll children, m ∈ Node.walkAll ns := fun m hm =>
      hsub m (by rw [Node.walk]; exact List.mem_cons_of_mem _ hm)
    obtain ⟨replaced, hr⟩ := balances_nodes (fun m hm y => ih m hm fun k hk =>
      hwalk k (Node.mem_walkAll.2 ⟨m, hm, hk⟩)) hz hp
    refine ⟨replaced, hr.told, hr.sound, fun a => ?_⟩
    simpa only [Import.headsIn_block] using hr.heads a

theorem balancing_inline (hoff : s.options.anchorReferences = false) (fuel : Nat) :
    Balancing s (inline s fuel) := by
  induction fuel with
  | zero =>
    intro c ns y h
    cases h
  | succ fuel ih =>
    intro c ns y h
    refine ⟨charsetsBare_nodes h, balances_nodes (fun n hn y => ?_) h⟩
    exact balances_node hoff ih fun m hm => Node.mem_walkAll.2 ⟨n, hn, hm⟩

end OnePass

/-- One less for each element of a sum. -/
theorem sum_map_sub_one {α : Type} (f : α → Nat) (xs : List α) :
    (xs.map fun x => (f x : Int) - 1).sum = ((xs.map f).sum : Nat) - xs.length := by
  induction xs with
  | nil => rfl
  | cons x xs ih =>
    simp only [List.map_cons, List.sum_cons, List.length_cons, ih]
    omega

/-- Every import of the sheet, and of each page once for every event that tells of it, is still
there in the result or was replaced, and as many were replaced as events tell of it. -/
theorem resolve_conserves_imports {s : Setup} {sheet : Sheet} {edits : List Edit}
    (h : (sheet.resolve s).edits = .ok edits) (hoff : s.options.anchorReferences = false)
    (hplain : ∀ url ∈ (sheet.resolve s).progress.ledger.requested, s.Plain url) :
    let told := (sheet.resolve s).progress.trace.filter fun e => e.kind == .resolved
    let result := (sheet.edited edits).children
    (∃ replaced : List (AtHead × Event), (replaced.map Prod.snd).Perm told ∧
      (∀ x ∈ replaced, Replaced s (.atStart s.options sheet.origin) sheet.children x) ∧
      (Import.headsIn result ++ replaced.map Prod.fst).Perm
        (Import.headsIn sheet.children ++
          told.flatMap fun e => Import.headsIn (s.nodesTold e))) ∧
    ∀ origin, ((Import.findAll result origin).length : Int) =
      (Import.findAll sheet.children origin).length +
        (told.map fun e => ((Import.findAll (s.nodesTold e) origin).length : Int) - 1).sum := by
  intro told result
  obtain ⟨y, hy, hnodes, -, hadd⟩ :=
    Run.adds_edits (Nat.le_refl _) (Ledger.honest_empty _) (Sheet.ends_of_resolve h)
  obtain ⟨replaced, hr⟩ := (OnePass.balancing_inline hoff _ _ _ _ hy).2 fun url hu =>
    hplain url ((hadd.asked url).2 (.inr hu))
  have htold : (replaced.map Prod.snd).Perm told := hr.told ▸ hadd.told
  have hheads : (Import.headsIn result ++ replaced.map Prod.fst).Perm
      (Import.headsIn sheet.children ++ told.flatMap fun e => Import.headsIn (s.nodesTold e)) := by
    refine .trans (List.perm_iff_count.2 fun a => ?_)
      ((List.Perm.refl _).append (htold.flatMap_right _))
    rw [List.count_append, List.count_append]
    have := hr.heads a
    rwa [← hnodes] at this
  refine ⟨⟨replaced, htold, hr.sound, hheads⟩, fun origin => ?_⟩
  have hlength := hheads.length_eq
  have hmany := htold.length_eq
  simp only [List.length_append, List.length_map, List.length_flatMap,
    Import.length_headsIn _ origin] at hlength hmany
  rw [sum_map_sub_one]
  omega

/-- A page that is imported twice, once below a block, brings two imports each time. One of them is
missing, and the page of the other is not walked over. -/
theorem resolve_conserves_imports_twice :
    let pages : List (Text × Page) :=
      [("https://h/a.css".toList,
          .body "@charset 'x';@import 'b.css' print;@import 'c.css';".toList),
        ("https://h/b.css".toList, .body "@import 'd.css';@import 'e.css';b\x7b\x7d".toList)]
    let s : Setup :=
      { options := { recursive := true, maxDepth := some 1 }, network := .ofPages [] pages }
    let first : Node := .statement [] ⟨"import".toList, "'https://h/a.css'".toList, [' '], []⟩ true
    let sheet : Sheet := ⟨[first, .block [] (.rule ['a'] []) [first] []], [], none⟩
    ∃ edits, (sheet.resolve s).edits = .ok edits ∧
      (∀ url ∈ (sheet.resolve s).progress.ledger.requested, s.Plain url) ∧
      (Import.findAll (sheet.edited edits).children none).length = 6 := by
  intro pages s first sheet
  obtain ⟨edits, h⟩ : ∃ edits, (sheet.resolve s).edits = .ok edits :=
    exists_eq_ok_iff.2 (by decide +kernel)
  have hplain : ∀ url ∈ (sheet.resolve s).progress.ledger.requested, s.Plain url := by
    decide +kernel
  have hcount := (resolve_conserves_imports h rfl hplain).2 none
  have hbefore : (Import.findAll sheet.children none).length = 2 := by decide +kernel
  have htold : (((sheet.resolve s).progress.trace.filter fun e => e.kind == .resolved).map
      fun e => ((Import.findAll (s.nodesTold e) none).length : Int) - 1).sum = 4 := by
    decide +kernel
  rw [hbefore, htold] at hcount
  exact ⟨edits, h, hplain, by omega⟩

end StyleSplice
