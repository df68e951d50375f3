import StyleSplice.Proofs.Shared.Agreement

/-!
# The nodes of the workbench

However the steps of the work change a sheet, its nodes stay a forest: a node is never its own
descendant and never the child of two others. New nodes may be grafted into a forest, single nodes
may be changed, and a run leaves a forest. So a run over the workbench does at any time what a run
over the sheet does that is on it.
-/

namespace StyleSplice

namespace Store

variable {s t : Store} {k : Key} {ks js new u v w : List Key} {c d : Cell} {n : Node}
  {ns ms : List Node}

namespace Holds

/-- The footprint depends on nothing but the children of the cells. -/
theorem reshape (h : s.Holds ks ns w)
    (ht : ∀ k ∈ w, k < t.cells.size ∧ t.childrenOf k = s.childrenOf k) : ∃ ms, t.Holds ks ms w := by
  induction h with
  | nil => exact ⟨[], .nil⟩
  | @cons k js v w c children ns cell inside rest hinside hrest =>
    obtain ⟨hk, hchildren⟩ := ht k List.mem_cons_self
    obtain ⟨children', hinside⟩ := hinside fun j hj => ht j (by simp [hj])
    obtain ⟨ns', hrest⟩ := hrest fun j hj => ht j (by simp [hj])
    obtain ⟨d, hd⟩ := exists_cell? hk
    rw [childrenOf_eq cell, childrenOf_eq hd] at hchildren
    exact ⟨d.node children' :: ns', .cons hd (by rwa [hchildren]) hrest⟩

theorem split {is : List Key} (h : s.Holds (is ++ js) ns w) : ∃ as bs u v, w = u ++ v ∧
    s.Holds is as u ∧ s.Holds js bs v := by
  induction is generalizing ns w with
  | nil => exact ⟨[], ns, [], w, rfl, .nil, h⟩
  | cons k is ih =>
    cases h with
    | @cons _ _ x y c children ns cell inside rest =>
      obtain ⟨as, bs, u, v, rfl, has, hbs⟩ := ih rest
      exact ⟨_, bs, k :: (x ++ u), v, by simp, .cons cell inside has, hbs⟩

theorem tail (h : s.Holds ks ns w) : ∃ ms v, v.Sublist w ∧ s.Holds (ks.drop 1) ms v := by
  cases h with
  | nil => exact ⟨[], [], List.Sublist.refl _, .nil⟩
  | @cons k js x y c children ns cell inside rest =>
    exact ⟨ns, y, (List.sublist_append_right x y).cons k, rest⟩

end Holds

/-- The keys hold some nodes, all of whose keys come from `w` and none of which comes up twice. -/
def HoldsWithin (s : Store) (ks w : List Key) : Prop :=
  ∃ ns v, s.Holds ks ns v ∧ v.Nodup ∧ v ⊆ w

/-- Other nodes may take the place of one among others. -/
theorem Holds.replaceAt (h : s.Holds ks ns w) (hw : w.Nodup) (hnew : s.Holds new ms u)
    (hu : u.Nodup) (hdisj : List.Disjoint w u) (i : Nat) :
    s.HoldsWithin (ks.take i ++ new ++ ks.drop (i + 1)) (w ++ u) := by
  rw [← List.take_append_drop i ks] at h
  obtain ⟨as, bs, x, y, rfl, has, hbs⟩ := h.split
  obtain ⟨bs', z, hz, hrest⟩ := hbs.tail
  rw [List.drop_drop] at hrest
  obtain ⟨hx, hy, hxy⟩ := List.nodup_append.1 hw
  refine ⟨_, _, (has.append hnew).append hrest, ?_, ?_⟩
  · refine List.nodup_append.2 ⟨List.nodup_append.2 ⟨hx, hu, ?_⟩, hy.sublist hz, ?_⟩
    · rintro j hj _ hju rfl
      exact hdisj (List.mem_append_left y hj) hju
    · rintro j hj _ hjz rfl
      have hjy := hz.subset hjz
      rcases List.mem_append.1 hj with hjx | hju
      · exact hxy j hjx j hjy rfl
      · exact hdisj (List.mem_append_right x hjy) hju
  · intro j hj
    have hzy : j ∈ z → j ∈ y := fun hjz => hz.subset hjz
    simp only [List.mem_append] at hj ⊢
    tauto

/-- A node over nodes, and others next to it. New keys come up on one side only. -/
theorem holdsWithin_cons {x y : List Key} {bs : List Node} (hw : (k :: (v ++ w)).Nodup)
    (hdisj : List.Disjoint (k :: (v ++ w)) u) (cell : t.cell? k = some c)
    (inside : t.Holds c.children ms x) (hx : x.Nodup) (rest : t.Holds js bs y) (hy : y.Nodup)
    (hsub : x ⊆ v ++ u ∧ y ⊆ w ∨ x ⊆ v ∧ y ⊆ w ++ u) :
    t.HoldsWithin (k :: js) (k :: (v ++ w) ++ u) := by
  obtain ⟨hk, hvw⟩ := List.nodup_cons.1 hw
  obtain ⟨-, -, hvw⟩ := List.nodup_append.1 hvw
  have hxin : ∀ j ∈ x, j ∈ v ∨ j ∈ u := fun j hj =>
    hsub.elim (fun h => List.mem_append.1 (h.1 hj)) fun h => .inl (h.1 hj)
  have hyin : ∀ j ∈ y, j ∈ w ∨ j ∈ u := fun j hj =>
    hsub.elim (fun h => .inl (h.2 hj)) fun h => List.mem_append.1 (h.2 hj)
  have hku : k ∉ u := hdisj List.mem_cons_self
  have hvu : ∀ j ∈ v, j ∉ u := fun j hj => hdisj (by simp [hj])
  have hwu : ∀ j ∈ w, j ∉ u := fun j hj => hdisj (by simp [hj])
  refine ⟨_, _, .cons cell inside rest, List.nodup_cons.2 ⟨fun hkin => ?_, ?_⟩, ?_⟩
  · rcases List.mem_append.1 hkin with hkx | hky
    · exact (hxin k hkx).elim (fun h => hk (List.mem_append_left w h)) hku
    · exact (hyin k hky).elim (fun h => hk (List.mem_append_right v h)) hku
  · refine List.nodup_append.2 ⟨hx, hy, ?_⟩
    rintro j hjx _ hjy rfl
    rcases hsub with ⟨-, hyw⟩ | ⟨hxv, -⟩
    · exact (hxin j hjx).elim (fun h => hvw j h j (hyw hjy) rfl) (hwu j (hyw hjy))
    · exact (hyin j hjy).elim (fun h => hvw j (hxv hjx) j h rfl) (hvu j (hxv hjx))
  · intro j hj
    have := hxin j
    have := hyin j
    simp only [List.mem_cons, List.mem_append] at hj ⊢
    tauto

/-- A forest in which one node gets other children, some of which may be new. -/
theorem Holds.graft (h : s.Holds ks ns w) (hw : w.Nodup) (hdisj : List.Disjoint w u) (hk : k ∈ w)
    (hd : ∀ c children v, s.cell? k = some c → s.Holds c.children children v → v.Nodup →
      v ⊆ w → s.HoldsWithin d.children (v ++ u)) :
    (s.set k d).HoldsWithin ks (w ++ u) := by
  induction h with
  | nil => cases hk
  | @cons k' js v w c children ns cell inside rest hinside hrest =>
    have hall := List.nodup_cons.1 hw
    obtain ⟨hv, hw', hvw⟩ := List.nodup_append.1 hall.2
    -- A footprint that `k` is not in is the same as before.
    have hother {is : List Key} {as : List Node} {x : List Key} (hx : s.Holds is as x)
        (hkx : k ∉ x) : (s.set k d).Holds is as x :=
      hx.congr fun j hj => cell?_set_of_ne (by rintro rfl; exact hkx hj) d
    have hvsub : v ⊆ k' :: (v ++ w) := fun j hj => by simp [hj]
    have hwsub : w ⊆ k' :: (v ++ w) := fun j hj => by simp [hj]
    by_cases hkk : k = k'
    · subst hkk
      obtain ⟨ms, x, hx, hxnodup, hxin⟩ := hd c children v cell inside hv hvsub
      have hkx : k ∉ x := fun hkx => (List.mem_append.1 (hxin hkx)).elim
        (fun h => hall.1 (List.mem_append_left w h)) (hdisj hk)
      exact holdsWithin_cons hw hdisj (cell?_set_self (lt_size_of_cell? cell) d) (hother hx hkx)
        hxnodup (hother rest fun h => hall.1 (List.mem_append_right v h)) hw'
        (.inl ⟨hxin, List.Subset.refl w⟩)
    · have hcell := (cell?_set_of_ne (Ne.symm hkk) d).trans cell
      rcases List.mem_append.1 ((List.mem_cons.1 hk).resolve_left hkk) with hkv | hkw
      · obtain ⟨ms, x, hx, hxnodup, hxin⟩ := hinside hv (fun j hj => hdisj (hvsub hj)) hkv
          fun c children v' h1 h2 h3 h4 => hd c children v' h1 h2 h3 fun j hj => hvsub (h4 hj)
        exact holdsWithin_cons hw hdisj hcell hx hxnodup
          (hother rest fun h => hvw k hkv k h rfl) hw' (.inl ⟨hxin, List.Subset.refl w⟩)
      · obtain ⟨bs, y, hy, hynodup, hyin⟩ := hrest hw' (fun j hj => hdisj (hwsub hj)) hkw
          fun c children v' h1 h2 h3 h4 => hd c children v' h1 h2 h3 fun j hj => hwsub (h4 hj)
        exact holdsWithin_cons hw hdisj hcell (hother inside fun h => hvw k h k hkw rfl) hv hy hynodup
          (.inr ⟨List.Subset.refl v, hyin⟩)

variable {ε : Type} {f : Node → Except ε Node} {x : Node}

theorem Leafwise.children_ofNode (hf : Leafwise f) (h : f (c.node []) = .ok x) :
    (Cell.ofNode c.children x).children = c.children := by
  cases c with
  | block before head ks after =>
    rw [Cell.node, hf.block] at h
    cases h
    rfl
  | _ => exact List.eq_nil_of_subset_nil (children_ofNode_subset [] x)

theorem childrenOf_update (hf : Leafwise f) (s : Store) (ks : List Key) (k : Key) :
    (s.update f ks).1.childrenOf k = s.childrenOf k := by
  induction ks generalizing s with
  | nil => rfl
  | cons j ks ih =>
    rw [update]
    cases hc : s.cell? j with
    | none => exact ih s
    | some c =>
      dsimp only
      cases hx : f (c.node []) with
      | error e => rfl
      | ok x =>
        refine (ih _).trans ?_
        by_cases hkj : k = j
        · subst hkj
          rw [childrenOf_eq (cell?_set_self (lt_size_of_cell? hc) _), childrenOf_eq hc,
            hf.children_ofNode hx]
        · exact childrenOf_congr (cell?_set_of_ne hkj _)

/-- No node gets or loses a child when references are resolved, not even up to a fault. -/
theorem childrenOf_anchor (s : Store) (origin : Text) (ks : List Key) (k : Key) :
    (s.anchor origin ks).1.childrenOf k = s.childrenOf k := by
  have hvalues := childrenOf_update (leafwise_anchoredValue origin) s (s.walk ks) k
  unfold anchor
  rcases hu : s.update (Node.anchoredValue origin) (s.walk ks) with ⟨t, _ | fault⟩ <;>
    rw [hu] at hvalues
  · exact (childrenOf_update (leafwise_anchoredImport origin) t _ k).trans hvalues
  · exact hvalues

end Store

namespace Workbench

variable {w w' : Workbench} {ns : List Node} {v : List Key}

/-- The keys of the sheet are those of a forest. -/
def IsForest (w : Workbench) : Prop := ∃ ns v, w.store.Forest w.roots ns v

theorem IsForest.closed (h : w.IsForest) : w.Closed := by
  obtain ⟨ns, v, hv⟩ := h
  exact ⟨hv.closed, fun k hk => hv.holds.lt_size k (hv.holds.subset hk)⟩

theorem isForest_lay (h : w.Closed) (s : Sheet) : (w.lay s).IsForest := by
  obtain ⟨v, hv, hnodup, -⟩ := Store.holds_plantAll w.store s.children
  exact ⟨s.children, v, (h.lay s).store, hv, hnodup⟩

/-- Nodes may be changed as long as they keep their children. -/
theorem IsForest.reshape (h : w.IsForest) (hs : w.store.Spares 0 w'.store)
    (hroots : w'.roots = w.roots) (hchildren : ∀ k, w'.store.childrenOf k = w.store.childrenOf k) :
    w'.IsForest := by
  obtain ⟨ns, v, hv⟩ := h
  obtain ⟨ms, hms⟩ := hv.holds.reshape fun k hk =>
    ⟨Nat.lt_of_lt_of_le (hv.holds.lt_size k hk) hs.size_le, hchildren k⟩
  exact ⟨ms, v, hs.closed hv.closed, hroots ▸ hms, hv.nodup⟩

theorem IsForest.replaceAt (h : w.IsForest) (site : Site) (i : Nat) (ns : List Node) :
    (w.replaceAt site i ns).IsForest := by
  have hclosed := (h.closed.replaceAt site i ns).store
  obtain ⟨ms, v, hv⟩ := h
  obtain ⟨u, hu, hunodup, hnew⟩ := Store.holds_plantAll w.store ns
  have hspares := (Store.planted_plantAll (Nat.le_refl w.store.cells.size) ns).spares
  have hlt := hv.holds.lt_size
  have hlater := (hv.later hlt hspares).holds
  have hdisj : List.Disjoint v u := fun j hjv hju => Nat.not_le_of_lt (hlt j hjv) (hnew j hju)
  cases site with
  | sheet =>
    obtain ⟨ns', x, hx, hxnodup, -⟩ := hlater.replaceAt hv.nodup hu hunodup hdisj i
    exact ⟨ns', x, hclosed, hx, hxnodup⟩
  | node k =>
    unfold Workbench.replaceAt Workbench.setChildren at hclosed ⊢
    dsimp only [childrenAt] at hclosed ⊢
    cases hc : (w.store.plantAll ns).1.cell? k with
    | none =>
      rw [hc] at hclosed
      exact ⟨ms, v, hclosed, hlater, hv.nodup⟩
    | some c =>
      rw [hc] at hclosed
      by_cases hk : k ∈ v
      · have hold := Store.childrenOf_eq ((hspares.same k (hlt k hk)).symm.trans hc)
        rw [hold] at hclosed ⊢
        obtain ⟨ns', x, hx, hxnodup, -⟩ := hlater.graft (d := .ofNode
          (c.children.take i ++ (w.store.plantAll ns).2 ++ c.children.drop (i + 1)) (c.node []))
          hv.nodup hdisj hk fun c' children y hc' hin hy hyv => by
            rw [hc] at hc'
            cases hc'
            cases c with
            | block before head kids after =>
              exact hin.replaceAt hy hu hunodup (fun j hj => hdisj (hyv hj)) i
            | _ => exact ⟨[], [], .nil, List.nodup_nil, List.nil_subset _⟩
        exact ⟨ns', x, hclosed, hx, hxnodup⟩
      · refine ⟨ms, v, hclosed, hlater.congr fun j hj => ?_, hv.nodup⟩
        exact Store.cell?_set_of_ne (by rintro rfl; exact hk hj) _

/-- What a step over the workbench comes to if the run over its sheet has the outcome `o`. -/
def Agrees (w : Workbench) (o : Outcome) (r : Workbench × Except WorkFault WorkReply) : Prop :=
  match o.edits with
  | .error h => r.2 = .error (.halted h) ∧ r.1.sheet = w.sheet
  | .ok edits =>
    r.2 = .ok (.resolved w.text o.progress.diagnostics) ∧ r.1.sheet = w.sheet.edited edits ∧
      -- What the run keeps is not only alike: it is the node that it was.
      ∀ (i : Nat) (k : Key), w.roots[i]? = some k → edits[i]? = some .keep → k ∈ r.1.roots

/-- A run over a forest agrees with the run over the sheet, and leaves a forest. -/
theorem agrees_of_forest (h : w.store.Forest w.roots ns v) (s : Setup) :
    w.Agrees (w.sheet.resolve s) (w.resolve s) ∧ (w.resolve s).1.IsForest := by
  have hnodes : w.store.nodes w.roots = ns := h.holds.nodes_eq h.nodup
  have hchildren : w.sheet.children = ns := hnodes
  have horigin : w.sheet.origin = w.origin := rfl
  obtain ⟨y, hy⟩ : ∃ y, (w.sheet.resolve s).edits = y := ⟨_, rfl⟩
  have hends := Sheet.ends_of_resolve hy
  obtain ⟨hprogress, hresult⟩ := StoreRun.mirrors_resolveKeys (p := {}) s (s.network.size + 2)
    (.atStart s.options w.origin) h
  obtain ⟨hspares, -⟩ := StoreRun.descends_resolveKeys w.store.cells.size s (s.network.size + 2)
    (.atStart s.options w.origin) w.roots w.store (StoreRun.ready_of_forest h) {}
  rcases hkeys : (StoreRun.resolveKeys s (s.network.size + 2)
    (.atStart s.options w.origin) w.roots).outcome w.store {} with ⟨x, store, p⟩
  rw [hchildren, horigin] at hends
  rw [hkeys] at hprogress hresult hspares
  rw [hends] at hprogress hresult
  rw [resolve_eq, hkeys]
  -- The nodes that were there are still there, so the sheet of before can be read off the new store.
  have hlater := h.later h.holds.lt_size hspares
  have hsame : store.nodes w.roots = ns := hlater.holds.nodes_eq hlater.nodup
  generalize w.sheet.resolve s = o at hy hprogress
  obtain ⟨z, q⟩ := o
  obtain rfl : y = z := hy.symm
  cases hprogress
  cases x <;> cases y <;> first | exact hresult.elim | skip
  case error.error e e' =>
    cases hresult
    exact ⟨⟨rfl, by rw [sheet, sheet, hnodes, hsame]⟩, ns, v, hlater⟩
  case ok.ok js edits =>
    obtain ⟨⟨u, hu, hunodup, -⟩, hkept⟩ := hresult
    have hnew : store.nodes js = Edit.applyAll ns edits := hu.nodes_eq hunodup
    dsimp only
    refine ⟨⟨?_, ?_, hkept⟩, _, u, hlater.closed, hu, hunodup⟩
    · rw [text, hnodes, hsame]
    · rw [sheet, sheet, Sheet.edited, hnodes, hnew]

theorem IsForest.step (h : w.IsForest) (st : WorkStep) : (w.step st).1.IsForest := by
  cases st with
  | replace path ns =>
    refine of_settle h fun w' hw' => ?_
    obtain ⟨site, i, rfl⟩ := eq_replaceAt_of_replace hw'
    exact h.replaceAt site i ns
  | replaceIn path old ns =>
    refine of_settle h fun w' hw' => ?_
    obtain ⟨site, i, rfl⟩ := eq_replaceAt_of_replaceIn hw'
    exact h.replaceAt site i ns
  | pick path origin =>
    rw [Workbench.step, pick]
    cases w.containerAt path <;> exact h
  | retarget index url =>
    rw [Workbench.step]
    split
    · rename_i hw'
      obtain ⟨hspares, hchildren, hroots⟩ := spares_retarget hw'
      exact h.reshape hspares hroots hchildren
    · exact h
  | anchor origin =>
    have hspares := w.store.spares_zero_anchor origin w.roots
    have hchildren := w.store.childrenOf_anchor origin w.roots
    rw [Workbench.step]
    split <;> rename_i hanchor <;> rw [hanchor] at hspares hchildren <;>
      exact h.reshape hspares rfl hchildren
  | wrap index =>
    refine of_settle h fun w' hw' => ?_
    unfold wrap at hw'
    split at hw' <;> cases hw'
    obtain ⟨hspares, -⟩ := Store.planted_wrapAll _ (Nat.zero_le w.store.cells.size)
      fun k hk => ⟨Nat.zero_le k, h.closed.roots k hk⟩
    obtain ⟨ns, v, hv⟩ := h
    obtain ⟨u, hu, hunodup, -⟩ := hv.holds.wrapAll hv.nodup _
    exact ⟨_, u, hspares.closed hv.closed, hu, hunodup⟩
  | resolve s =>
    obtain ⟨ns, v, hv⟩ := h
    exact (agrees_of_forest hv s).2
  | reparse =>
    refine of_settle h fun w' hw' => ?_
    unfold reparse at hw'
    split at hw' <;> cases hw'
    exact isForest_lay h.closed _

theorem isForest_run (sheet : Sheet) (steps : List WorkStep) :
    ((ofSheet sheet).run steps).IsForest :=
  run_preserves (fun _ st h => h.step st) (isForest_lay closed_empty sheet) steps

/-- **Shared nodes make no difference.** Whatever steps a sheet has been through, a run over the
workbench does what a run over the sheet on it does. -/
theorem resolve_agrees (sheet : Sheet) (steps : List WorkStep) (s : Setup) :
    let w := (ofSheet sheet).run steps
    w.Agrees (w.sheet.resolve s) (w.step (.resolve s)) := by
  obtain ⟨ns, v, hv⟩ := isForest_run sheet steps
  exact (agrees_of_forest hv s).1

end Workbench

end StyleSplice
