import Mathlib.Data.List.Basic
import StyleSplice.Proofs.Shared.Store
import StyleSplice.Shared.Workbench

/-!
# The input of a run over shared nodes

A run changes nodes in place, and its result shares nodes with its input. Yet no node of the input
changes: whatever is changed is content of a page that the run itself has put into the store, also
where an import that stays in place comes up to the front of the nodes that are put around it. A run
spares every node that was there when it started, however it ends, and this holds for all trees that
the steps of the work can come to.
-/

namespace StyleSplice

namespace StoreRun

variable {α β : Type} {n : Nat} {s : Setup} {c : Context} {σ τ : Store} {p q : Progress} {k : Key}
  {ks js : List Key}

/-- The result of a computation, with the store and the progress at its end. -/
def outcome (m : StoreRun α) (σ : Store) (p : Progress) : Except Halt α × Store × Progress :=
  m.run.run (σ, p)

theorem outcome_bind (m : StoreRun α) (f : α → StoreRun β) (σ : Store) (p : Progress) :
    (m >>= f).outcome σ p =
      match m.outcome σ p with
      | (.ok a, τ, q) => (f a).outcome τ q
      | (.error h, τ, q) => (.error h, τ, q) := by
  unfold outcome
  simp only [ExceptT.run_bind, StateT.run_bind]
  change (match m.run.run (σ, p) with | (x, r) => _) = _
  rcases m.run.run (σ, p) with ⟨_ | a, r⟩ <;> rfl

@[simp] theorem outcome_pure (a : α) (σ : Store) (p : Progress) :
    outcome (pure a) σ p = (.ok a, σ, p) := rfl

@[simp] theorem outcome_ofRun (m : Run α) (σ : Store) (p : Progress) :
    outcome (ofRun m) σ p = ((m.run.run p).1, σ, (m.run.run p).2) := rfl

@[simp] theorem outcome_read (f : Store → α) (σ : Store) (p : Progress) :
    outcome (read f) σ p = (.ok (f σ), σ, p) := rfl

@[simp] theorem outcome_change (f : Store → Store × α) (σ : Store) (p : Progress) :
    outcome (change f) σ p = (.ok (f σ).2, (f σ).1, p) := rfl

/-- A computation that starts with the store `σ` spares the first `n` nodes, and of the value that it
returns and the store then `Q` holds. -/
def Keeps (n : Nat) (m : StoreRun α) (σ : Store) (Q : α → Store → Prop) : Prop :=
  ∀ p, σ.Spares n (m.outcome σ p).2.1 ∧ ∀ a, (m.outcome σ p).1 = .ok a → Q a (m.outcome σ p).2.1

variable {Q : α → Store → Prop} {R : β → Store → Prop}

theorem keeps_pure {a : α} (h : Q a σ) : Keeps n (pure a) σ Q :=
  fun _ => ⟨.refl n σ, fun _ ha => by cases ha; exact h⟩

theorem keeps_ofRun {m : Run α} : Keeps n (ofRun m) σ fun _ τ => σ = τ :=
  fun _ => ⟨.refl n σ, fun _ _ => rfl⟩

theorem keeps_read {f : Store → α} : Keeps n (read f) σ fun a τ => σ = τ ∧ f σ = a :=
  fun _ => ⟨.refl n σ, fun _ ha => by cases ha; exact ⟨rfl, rfl⟩⟩

theorem keeps_change {f : Store → Store × α} (hspares : σ.Spares n (f σ).1) :
    Keeps n (change f) σ fun a τ => (f σ).1 = τ ∧ (f σ).2 = a :=
  fun _ => ⟨hspares, fun _ ha => by cases ha; exact ⟨rfl, rfl⟩⟩

theorem Keeps.imp {Q' : α → Store → Prop} {m : StoreRun α} (h : Keeps n m σ Q)
    (hq : ∀ a τ, Q a τ → Q' a τ) : Keeps n m σ Q' :=
  fun p => ⟨(h p).1, fun a ha => hq a _ ((h p).2 a ha)⟩

theorem Keeps.bind {m : StoreRun α} {f : α → StoreRun β} (h : Keeps n m σ Q)
    (hf : ∀ a τ, σ.Spares n τ → Q a τ → Keeps n (f a) τ R) : Keeps n (m >>= f) σ R := by
  intro p
  obtain ⟨hspares, hq⟩ := h p
  rw [outcome_bind]
  rcases hm : m.outcome σ p with ⟨e | a, τ, q⟩
  · rw [hm] at hspares
    exact ⟨hspares, fun _ hb => by cases hb⟩
  · rw [hm] at hspares hq
    obtain ⟨hrest, hr⟩ := hf a τ hspares (hq a rfl) q
    exact ⟨hspares.trans hrest, hr⟩

/-- What a computation over the keys `ks` can rely on. -/
structure Ready (n : Nat) (ks : List Key) (σ : Store) : Prop where
  size : n ≤ σ.cells.size
  closed : σ.Closed
  nodes : ∀ k ∈ ks, k < σ.cells.size

theorem Ready.later (h : Ready n ks σ) (hspares : σ.Spares n τ) : Ready n ks τ :=
  ⟨Nat.le_trans h.size hspares.size_le, hspares.closed h.closed,
    fun k hk => Nat.lt_of_lt_of_le (h.nodes k hk) hspares.size_le⟩

theorem Ready.subset (h : Ready n ks σ) (hsub : js ⊆ ks) : Ready n js σ :=
  ⟨h.size, h.closed, fun k hk => h.nodes k (hsub hk)⟩

/-- The keys `js` can take the place of `ks`: they are nodes, and if they were not there before, they
are new. -/
def Replaces (n : Nat) (ks js : List Key) (τ : Store) : Prop :=
  ∀ j ∈ js, j < τ.cells.size ∧ (j ∈ ks ∨ n ≤ j)

theorem replaces_self (h : Ready n ks σ) : Replaces n ks ks σ :=
  fun j hj => ⟨h.nodes j hj, .inl hj⟩

theorem keeps_giveUp {url : Text} {f : Fault} (h : Ready n [k] σ) :
    Keeps n (giveUp c url f k) σ (Replaces n [k]) := by
  refine .bind keeps_ofRun ?_
  rintro _ _ - rfl
  exact keeps_pure (replaces_self h)

/-- The content of a page is new, and only new nodes are changed by anchoring it. -/
theorem keeps_lay (url : Text) (page : List Node) (h : Ready n [] σ) :
    Keeps n (lay s url page) σ fun ks τ => ∀ k ∈ ks, n ≤ k ∧ k < τ.cells.size := by
  have hplanted := Store.planted_plantAll (Nat.le_refl σ.cells.size) page
  refine .bind (keeps_change (hplanted.spares.mono h.size)) ?_
  rintro _ _ - ⟨rfl, rfl⟩
  have hanchor := (Store.spares_anchor url (hplanted.upper σ.upper_size)
    fun k hk => (hplanted.new k hk).1).mono h.size
  have hnew : ∀ k ∈ (σ.plantAll page).2, n ≤ k ∧ k < (σ.plantAll page).1.cells.size := fun k hk =>
    ⟨Nat.le_trans h.size (hplanted.new k hk).1, (hplanted.new k hk).2⟩
  refine .bind (Q := fun _ _ => True) ?_ fun _ τ hτ _ =>
    keeps_pure fun k hk => ⟨(hnew k hk).1, Nat.lt_of_lt_of_le (hnew k hk).2 hτ.size_le⟩
  split
  · refine .bind (keeps_change hanchor) ?_
    rintro (_ | f) τ - -
    · exact keeps_pure trivial
    · exact keeps_ofRun.imp fun _ _ _ => trivial
  · exact keeps_pure trivial

/-- What walks over content, as far as the store is concerned. -/
def Descends (n : Nat) (descend : Context → List Key → StoreRun (List Key)) : Prop :=
  ∀ c ks σ, Ready n ks σ → Keeps n (descend c ks) σ (Replaces n ks)

variable {descend : Context → List Key → StoreRun (List Key)}

theorem keeps_visit (hdescend : Descends n descend) (url : Text) (h : Ready n ks σ) :
    Keeps n (visit s descend c url ks) σ (Replaces n ks) := by
  unfold visit
  split
  · exact hdescend _ _ _ h
  · refine .bind keeps_read ?_
    rintro _ _ - ⟨rfl, -⟩
    refine .bind keeps_ofRun ?_
    rintro _ _ - rfl
    exact keeps_pure (replaces_self h)

/-- Nodes that are put in the place of an import are new. -/
theorem keeps_splice (hdescend : Descends n descend) (h : Ready n [] σ) (o : Run.Order)
    (page : List Node) :
    Keeps n (splice s descend c k o page) σ fun js τ => ∀ j ∈ js, n ≤ j ∧ j < τ.cells.size := by
  refine .bind (keeps_lay o.2 page h) fun ks τ hτ hks => ?_
  have hready : Ready n ks τ :=
    ⟨(h.later hτ).size, (h.later hτ).closed, fun k hk => (hks k hk).2⟩
  refine .bind (keeps_visit hdescend o.2 hready) fun content υ hυ hcontent => ?_
  have hnew : ∀ j ∈ content, n ≤ j ∧ j < υ.cells.size := fun j hj =>
    ⟨(hcontent j hj).2.elim (fun hin => (hks j hin).1) id, (hcontent j hj).1⟩
  obtain ⟨hspares, hkeys⟩ := Store.planted_replacement o.1 k (hready.later hυ).size hnew
  refine .bind (keeps_change hspares) ?_
  rintro _ _ - ⟨rfl, rfl⟩
  refine .bind keeps_ofRun ?_
  rintro _ _ - rfl
  exact keeps_pure hkeys

theorem keeps_inline (hdescend : Descends n descend) (o : Run.Order) (h : Ready n [k] σ) :
    Keeps n (inline s descend c k o) σ (Replaces n [k]) := by
  refine .bind keeps_ofRun ?_
  rintro (f | text) _ - rfl
  · exact keeps_giveUp h
  · dsimp only
    split
    · exact keeps_giveUp h
    · exact (keeps_splice hdescend (h.subset (List.nil_subset _)) o _).imp
        fun js υ hjs j hj => ⟨(hjs j hj).2, .inr (hjs j hj).1⟩

theorem keeps_eachKey {f : Key → Option Run.Order → StoreRun (List Key)}
    (hf : ∀ k o σ, Ready n [k] σ → Keeps n (f k o) σ (Replaces n [k])) (h : Ready n ks σ)
    (os : List (Option Run.Order)) : Keeps n (eachKey f ks os) σ (Replaces n ks) := by
  induction ks generalizing os σ with
  | nil => exact keeps_pure fun j hj => by cases hj
  | cons k ks ih =>
    cases os with
    | nil => exact keeps_pure fun j hj => by cases hj
    | cons o os =>
      refine .bind (hf k o σ (h.subset (by simp))) fun here τ hτ hhere => ?_
      refine .bind (ih ((h.later hτ).subset (by simp)) os) fun rest υ hυ hrest => ?_
      refine keeps_pure fun j hj => ?_
      rcases List.mem_append.1 hj with hj | hj
      · obtain ⟨hlt, hin⟩ := hhere j hj
        exact ⟨Nat.lt_of_lt_of_le hlt hυ.size_le, hin.imp (by simp +contextual) id⟩
      · obtain ⟨hlt, hin⟩ := hrest j hj
        exact ⟨hlt, hin.imp (List.mem_cons_of_mem k) id⟩

theorem keeps_resolveKey {replace : Context → Key → Run.Order → StoreRun (List Key)}
    (hreplace : ∀ k o σ, Ready n [k] σ → Keeps n (replace c k o) σ (Replaces n [k]))
    (depth : Nat) (o : Option Run.Order) (h : Ready n [k] σ) :
    Keeps n (resolveKey s replace c depth k o) σ (Replaces n [k]) := by
  induction depth generalizing k o σ with
  | zero =>
    cases o with
    | some o => exact hreplace k o σ h
    | none => exact keeps_pure (replaces_self h)
  | succ depth ih =>
    cases o with
    | some o => exact hreplace k o σ h
    | none =>
      rw [resolveKey]
      refine .bind keeps_read ?_
      rintro _ _ - ⟨rfl, rfl⟩
      split
      · rename_i before head children after heq
        -- The children of the block are nodes, and the block itself is left alone.
        have hchildren : Ready n children σ :=
          ⟨h.size, h.closed, h.closed k _ (Prod.mk.inj heq).1⟩
        refine .bind keeps_ofRun ?_
        rintro _ _ - rfl
        refine .bind keeps_read ?_
        rintro _ _ - ⟨rfl, -⟩
        refine .bind keeps_ofRun ?_
        rintro os _ - rfl
        refine .bind (keeps_eachKey (fun k o σ hk => ih o hk) hchildren os) fun new τ hτ hnew => ?_
        have hsize := (hchildren.later hτ).size
        refine .bind (keeps_change (.add hsize fun j hj => (hnew j hj).1)) ?_
        rintro _ _ - ⟨rfl, rfl⟩
        refine keeps_pure fun j hj => ?_
        rw [List.mem_singleton.1 hj]
        exact ⟨by simp, .inr hsize⟩
      · exact keeps_pure (replaces_self h)

/-- A run spares the nodes that were there before it, also when it is one of the runs inside. -/
theorem descends_resolveKeys (n : Nat) (s : Setup) (fuel : Nat) :
    Descends n (resolveKeys s fuel) := by
  induction fuel with
  | zero =>
    intro c ks σ _ p
    exact ⟨.refl n σ, fun a ha => by cases ha⟩
  | succ fuel ih =>
    intro c ks σ h
    refine .bind keeps_ofRun ?_
    rintro _ _ - rfl
    refine .bind keeps_read ?_
    rintro x _ - ⟨rfl, -⟩
    refine .bind keeps_ofRun ?_
    rintro os _ - rfl
    exact keeps_eachKey
      (fun k o σ hk => keeps_resolveKey (fun k o σ hk => keeps_inline ih o hk) _ o hk) h os

end StoreRun

namespace Workbench

variable {w w' : Workbench} {site : Site}

/-- The workbench after some steps. -/
def run (w : Workbench) (steps : List WorkStep) : Workbench :=
  steps.foldl (fun w st => (w.step st).1) w

/-- What every step preserves is preserved by all of them. -/
theorem run_preserves {P : Workbench → Prop} (hstep : ∀ w st, P w → P (w.step st).1) (h : P w)
    (steps : List WorkStep) : P (w.run steps) := by
  unfold run
  induction steps generalizing w with
  | nil => exact h
  | cons st steps ih => exact ih (hstep w st h)

/-- The keys of the sheet and of all children are those of nodes. -/
structure Closed (w : Workbench) : Prop where
  store : w.store.Closed
  roots : ∀ k ∈ w.roots, k < w.store.cells.size

theorem closed_empty : ({} : Workbench).Closed :=
  ⟨fun k c hc => by simp [Store.cell?] at hc, by simp⟩

/-- What spares no node in particular keeps the workbench closed as long as it keeps the sheet. -/
theorem Closed.of_spares (h : w.Closed) {n : Nat} (hs : w.store.Spares n w'.store)
    (hroots : w'.roots = w.roots) : w'.Closed :=
  ⟨hs.closed h.store, fun k hk => Nat.lt_of_lt_of_le (h.roots k (hroots ▸ hk)) hs.size_le⟩

theorem Closed.childrenAt (h : w.Closed) (site : Site) :
    ∀ k ∈ w.childrenAt site, k < w.store.cells.size := by
  cases site with
  | sheet => exact h.roots
  | node k =>
    intro j hj
    rw [Workbench.childrenAt] at hj
    cases hc : w.store.cell? k with
    | none =>
      rw [Store.childrenOf, hc] at hj
      cases hj
    | some c =>
      rw [Store.childrenOf_eq hc] at hj
      exact h.store k c hc j hj

theorem Closed.setChildren (h : w.Closed) {ks : List Key} (hks : ∀ k ∈ ks, k < w.store.cells.size) :
    (w.setChildren site ks).Closed := by
  cases site with
  | sheet => exact ⟨h.store, hks⟩
  | node k =>
    unfold Workbench.setChildren
    dsimp only
    split
    · refine h.of_spares (.set (Nat.zero_le k) fun _ j hj => ?_) rfl
      exact hks j (Store.children_ofNode_subset _ _ hj)
    · exact h

theorem Closed.replaceAt (h : w.Closed) (site : Site) (i : Nat) (ns : List Node) :
    (w.replaceAt site i ns).Closed := by
  have hplanted := Store.planted_plantAll (Nat.zero_le w.store.cells.size) ns
  have hchildren := h.childrenAt site
  have hstore : Closed { w with store := (w.store.plantAll ns).1 } :=
    h.of_spares hplanted.spares rfl
  refine hstore.setChildren fun k hk => ?_
  have hold : ∀ k ∈ w.childrenAt site, k < (w.store.plantAll ns).1.cells.size := fun k hk =>
    Nat.lt_of_lt_of_le (hchildren k hk) hplanted.spares.size_le
  rcases List.mem_append.1 hk with hk | hk
  · rcases List.mem_append.1 hk with hk | hk
    · exact hold k (List.mem_of_mem_take hk)
    · exact (hplanted.new k hk).2
  · exact hold k (List.mem_of_mem_drop hk)

theorem Closed.lay (h : w.Closed) (s : Sheet) : (w.lay s).Closed :=
  have hplanted := Store.planted_plantAll (Nat.zero_le w.store.cells.size) s.children
  ⟨hplanted.spares.closed h.store, fun k hk => (hplanted.new k hk).2⟩

/-- What holds of the workbench and of the outcome of a step holds of what the step leaves. -/
theorem of_settle {P : Workbench → Prop} {outcome : Except WorkFault Workbench} (h : P w)
    (hw : ∀ w', outcome = .ok w' → P w') : P (w.settle outcome).1 := by
  cases outcome with
  | ok w' => exact hw w' rfl
  | error f => exact h

theorem eq_replaceAt_of_replace {path : List Nat} {ns : List Node}
    (h : w.replace path ns = .ok w') : ∃ site i, w' = w.replaceAt site i ns := by
  unfold replace at h
  split at h <;> try cases h
  split at h <;> try cases h
  split at h <;> cases h
  exact ⟨_, _, rfl⟩

theorem eq_replaceAt_of_replaceIn {path old : List Nat} {ns : List Node}
    (h : w.replaceIn path old ns = .ok w') : ∃ site i, w' = w.replaceAt site i ns := by
  unfold replaceIn at h
  split at h <;> try cases h
  split at h <;> try cases h
  dsimp only at h
  split at h <;> cases h
  exact ⟨_, _, rfl⟩

/-- Giving an import another target changes at most the parameters of one node. -/
theorem spares_retarget {index : Nat} {url : Text} {d : Import}
    (h : w.retarget index url = .ok (w', d)) :
    w.store.Spares 0 w'.store ∧ (∀ k, w'.store.childrenOf k = w.store.childrenOf k) ∧
      w'.roots = w.roots := by
  unfold retarget at h
  split at h
  · cases h
  · rename_i d k _
    cases h
    dsimp only
    split
    · rename_i before head semicolon hc
      refine ⟨.set (Nat.zero_le k) fun _ _ hj => (by cases hj), fun j => ?_, rfl⟩
      by_cases hj : j = k
      · subst hj
        rw [Store.childrenOf_eq (Store.cell?_set_self (Store.lt_size_of_cell? hc) _),
          Store.childrenOf_eq hc]
        rfl
      · exact Store.childrenOf_congr (Store.cell?_set_of_ne hj _)
    · exact ⟨.refl 0 _, fun _ => rfl, rfl⟩

/-- The workbench after a run, by the outcome of the run over its keys. -/
theorem resolve_eq (w : Workbench) (s : Setup) : w.resolve s =
    match (StoreRun.resolveKeys s (s.network.size + 2) (.atStart s.options w.origin)
      w.roots).outcome w.store {} with
    | (.error e, store, _) => ({ w with store }, .error (.halted e))
    | (.ok roots, store, p) => ({ w with store, roots },
        .ok (.resolved (Node.textOf (store.nodes w.roots) ++ w.after) p.diagnostics)) := rfl

/-- What a run does to the workbench: it spares all nodes, and the sheet that it leaves consists of
nodes. -/
theorem spares_resolve (h : w.Closed) (s : Setup) :
    w.store.Spares w.store.cells.size (w.resolve s).1.store ∧ (w.resolve s).1.Closed := by
  obtain ⟨hspares, hkeys⟩ := StoreRun.descends_resolveKeys w.store.cells.size s
    (s.network.size + 2) (.atStart s.options w.origin) w.roots w.store
    ⟨Nat.le_refl _, h.store, h.roots⟩ {}
  rw [resolve_eq]
  rcases hrun : (StoreRun.resolveKeys s (s.network.size + 2)
    (.atStart s.options w.origin) w.roots).outcome w.store {} with ⟨_ | roots, store, p⟩
  all_goals rw [hrun] at hspares hkeys
  · exact ⟨hspares, h.of_spares hspares rfl⟩
  · exact ⟨hspares, hspares.closed h.store, fun k hk => (hkeys roots rfl k hk).1⟩

theorem Closed.step (h : w.Closed) (st : WorkStep) : (w.step st).1.Closed := by
  cases st with
  | replace path ns =>
    refine of_settle h fun w' hw' => ?_
    obtain ⟨site, i, rfl⟩ := eq_replaceAt_of_replace hw'
    exact h.replaceAt site i ns
  | replaceIn path old ns =>
    refine of_settle h fun w' hw' => ?_
    obtain ⟨site, i, rfl⟩ := eq_replaceAt_of_replaceIn hw'
    exact h.replaceAt site i ns
  | pick path origin =>
    rw [Workbench.step, Workbench.pick]
    cases w.containerAt path with
    | error f => exact h
    | ok site => exact ⟨h.store, h.roots⟩
  | retarget index url =>
    rw [Workbench.step]
    split
    · rename_i hw'
      obtain ⟨hspares, -, hroots⟩ := spares_retarget hw'
      exact h.of_spares hspares hroots
    · exact h
  | anchor origin =>
    have hspares := w.store.spares_zero_anchor origin w.roots
    rw [Workbench.step]
    split <;> rename_i hanchor <;> rw [hanchor] at hspares <;> exact h.of_spares hspares rfl
  | wrap index =>
    refine of_settle h fun w' hw' => ?_
    unfold Workbench.wrap at hw'
    split at hw' <;> try cases hw'
    obtain ⟨hspares, hkeys⟩ := Store.planted_wrapAll _ (Nat.zero_le w.store.cells.size)
      fun k hk => ⟨Nat.zero_le k, h.roots k hk⟩
    exact ⟨hspares.closed h.store, fun k hk => (hkeys k hk).2⟩
  | resolve s => exact (spares_resolve h s).2
  | reparse =>
    refine of_settle h fun w' hw' => ?_
    unfold Workbench.reparse at hw'
    split at hw' <;> cases hw'
    exact h.lay _

theorem closed_run (sheet : Sheet) (steps : List WorkStep) : ((ofSheet sheet).run steps).Closed :=
  run_preserves (fun _ st h => h.step st) (closed_empty.lay sheet) steps

/-- What is left of the sheet on the workbench `w` on the workbench `w'`. -/
structure Untouched (w w' : Workbench) : Prop where
  /-- Every node of the sheet is the node that it was, with the same children. -/
  node : ∀ k, w.store.Reaches w.roots k →
    ∃ c, w.store.cell? k = some c ∧ w'.store.cell? k = some c
  /-- So the same nodes belong to the sheet, -/
  reaches : ∀ k, w'.store.Reaches w.roots k ↔ w.store.Reaches w.roots k
  /-- and they are the same tree, however deep one looks. -/
  tree : ∀ depth, w'.store.nodesWithin depth w.roots = w.store.nodesWithin depth w.roots
  /-- Nodes that belong to earlier sheets or to picked imports only are left alone as well. -/
  other : ∀ k c, w.store.cell? k = some c → w'.store.cell? k = some c

end Workbench

namespace Store

variable {s t : Store} {ks : List Key} {k : Key}

theorem Spares.reaches_iff (h : s.Spares s.cells.size t) (hs : s.Closed)
    (hks : ∀ k ∈ ks, k < s.cells.size) : t.Reaches ks k ↔ s.Reaches ks k := by
  constructor
  · intro hk
    induction hk with
    | root mem => exact .root mem
    | child _ mem ih =>
      rw [childrenOf_congr (h.same _ (hs.lt_of_reaches hks ih))] at mem
      exact .child ih mem
  · intro hk
    induction hk with
    | root mem => exact .root mem
    | child above mem ih =>
      rw [← childrenOf_congr (h.same _ (hs.lt_of_reaches hks above))] at mem
      exact .child ih mem

theorem Spares.nodesWithin_eq (h : s.Spares s.cells.size t) (hs : s.Closed) (depth : Nat)
    (hks : ∀ k ∈ ks, k < s.cells.size) : t.nodesWithin depth ks = s.nodesWithin depth ks := by
  induction depth generalizing ks with
  | zero => rfl
  | succ depth ih =>
    rw [nodesWithin, nodesWithin]
    refine List.filterMap_congr fun k hk => ?_
    rw [h.same k (hks k hk)]
    cases hc : s.cell? k with
    | none => rfl
    | some c => rw [Option.map_some, Option.map_some, ih (hs k c hc)]

end Store

namespace Workbench

/-- **The frame of a run.** Whatever steps a sheet has been through, a run over it leaves the sheet as
it is, whether it ends with a result or without one. -/
theorem resolve_leaves_sheet (sheet : Sheet) (steps : List WorkStep) (s : Setup) :
    let w := (ofSheet sheet).run steps
    Untouched w (w.step (.resolve s)).1 := by
  intro w
  have hw : w.Closed := closed_run sheet steps
  have hspares := (spares_resolve hw s).1
  have hother : ∀ k c, w.store.cell? k = some c → (w.resolve s).1.store.cell? k = some c :=
    fun k c hc => (hspares.same k (Store.lt_size_of_cell? hc)).trans hc
  refine ⟨fun k hk => ?_, fun k => hspares.reaches_iff hw.store hw.roots,
    fun depth => hspares.nodesWithin_eq hw.store depth hw.roots, hother⟩
  obtain ⟨c, hc⟩ := Store.exists_cell? (hw.store.lt_of_reaches hw.roots hk)
  exact ⟨c, hc, hother k c hc⟩

end Workbench

end StyleSplice
