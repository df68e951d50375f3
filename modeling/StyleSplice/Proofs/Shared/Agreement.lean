import StyleSplice.Proofs.Resolve.Refinement
import StyleSplice.Proofs.Shared.Frame
import StyleSplice.Proofs.Shared.Holds

/-!
# A run over shared nodes and a run over a sheet

A run over nodes in a store changes them in place where a run over a sheet builds new ones. Both do
the same: they make the same progress, end for the same reason, and what the keys of the result hold
is what the edits leave of the sheet. What is kept is shared: it has the key that it had before.
-/

namespace StyleSplice

namespace StoreRun

variable {α β γ δ : Type} {s : Setup} {c : Context} {σ τ : Store} {p : Progress} {k : Key}
  {ks js w : List Key} {n : Node} {ns ms : List Node}

/-- Started at `σ` and `p`, a computation over a store makes the progress of a pure one and ends for
the same reason or with a value that `Q` relates to the pure one's. -/
def Mirrors (m : Run α) (m' : StoreRun β) (σ : Store) (p : Progress) (Q : α → β → Store → Prop) :
    Prop :=
  (m'.outcome σ p).2.2 = (m.outcome p).2 ∧
    match (m.outcome p).1, (m'.outcome σ p).1 with
    | .ok a, .ok b => Q a b (m'.outcome σ p).2.1
    | .error e, .error e' => e = e'
    | _, _ => False

variable {m : Run α} {m' : StoreRun β} {Q : α → β → Store → Prop} {R : γ → δ → Store → Prop}

theorem mirrors_pure {a : α} {b : β} (h : Q a b σ) : Mirrors (pure a) (pure b) σ p Q := ⟨rfl, h⟩

/-- What does not look at the store is the same in both, and no node changes meanwhile. -/
theorem mirrors_ofRun (m : Run α) (σ : Store) (p : Progress) :
    Mirrors m (ofRun m) σ p fun a b τ => a = b ∧ σ = τ ∧ ∃ q, m.Ends p (.ok a) q := by
  rcases hx : m.outcome p with ⟨x, q⟩
  have hrun : m.run.run p = (x, q) := hx
  rw [Mirrors, outcome_ofRun, hrun, hx]
  cases x with
  | ok a => exact ⟨rfl, rfl, rfl, q, hx⟩
  | error e => exact ⟨rfl, rfl⟩

theorem Mirrors.bind {f : α → Run γ} {f' : β → StoreRun δ} (h : Mirrors m m' σ p Q)
    (hf : ∀ a b τ q, Q a b τ → Mirrors (f a) (f' b) τ q R) :
    Mirrors (m >>= f) (m' >>= f') σ p R := by
  obtain ⟨hp, hx⟩ := h
  rw [Mirrors, outcome_bind, Run.outcome_bind]
  rcases hm : m.outcome p with ⟨x, q⟩
  rcases hm' : m'.outcome σ p with ⟨y, τ, q'⟩
  rw [hm, hm'] at hp hx
  cases hp
  cases x <;> cases y <;> first | exact hx.elim | skip
  · exact ⟨rfl, hx⟩
  · exact hf _ _ τ _ hx

/-- What is read off the store is the same at once. -/
theorem Mirrors.read {f : Store → δ} {f' : δ → StoreRun β} (h : Mirrors m (f' (f σ)) σ p Q) :
    Mirrors m (StoreRun.read f >>= f') σ p Q := by
  rw [Mirrors, outcome_bind, outcome_read]
  exact h

theorem Mirrors.change {f : Store → Store × δ} {f' : δ → StoreRun β}
    (h : Mirrors m (f' (f σ).2) (f σ).1 p Q) : Mirrors m (StoreRun.change f >>= f') σ p Q := by
  rw [Mirrors, outcome_bind, outcome_change]
  exact h

/-- What both computations do and what the one spares. -/
theorem Mirrors.keeps {k : Nat} {K : β → Store → Prop} (h : Mirrors m m' σ p Q)
    (hk : Keeps k m' σ K) : Mirrors m m' σ p fun a b τ => Q a b τ ∧ σ.Spares k τ ∧ K b τ := by
  obtain ⟨hspares, hb⟩ := hk p
  refine ⟨h.1, ?_⟩
  have h2 := h.2
  revert h2 hb
  cases (m.outcome p).1 <;> cases (m'.outcome σ p).1 <;> intro hb h2
  · exact h2
  · exact h2
  · exact h2
  · exact ⟨h2, hspares, hb _ rfl⟩

/-- Nodes that take the place of others: they are held by their keys, which are new unless they belong
to the old footprint. -/
def Holding (σ : Store) (w : List Key) (ms : List Node) (js : List Key) (τ : Store) : Prop :=
  ∃ u, τ.Holds js ms u ∧ u.Nodup ∧ ∀ j ∈ u, j ∈ w ∨ σ.cells.size ≤ j

theorem ready_of_forest (h : σ.Forest ks ns w) : Ready σ.cells.size ks σ :=
  ⟨Nat.le_refl _, h.closed, fun k hk => h.holds.lt_size k (h.holds.subset hk)⟩

theorem holding_self (h : σ.Forest ks ns w) : Holding σ w ns ks σ :=
  ⟨w, h.holds, h.nodup, fun _ => .inl⟩

/-- Only what can be seen of a node without its children counts for an order. -/
theorem orders_shell (s : Setup) (c : Context) (ns : List Node) :
    Run.orders s c (ns.map Node.shell) = Run.orders s c ns := by
  induction ns with
  | nil => rfl
  | cons n ns ih =>
    rw [List.map_cons, Run.orders, Run.orders, ih, Run.order, Run.order, Node.ofNode?_shell]

theorem orders_of_forest (h : σ.Forest ks ns w) (s : Setup) (c : Context) :
    Run.orders s c (ks.map σ.shell) = Run.orders s c ns := by
  rw [h.holds.map_shell, orders_shell]

/-- Walking over nodes in a store does what `descend` does. -/
def Walks (descend : Context → List Node → Run (List Node))
    (descend' : Context → List Key → StoreRun (List Key)) : Prop :=
  ∀ c ks ns w σ p, σ.Forest ks ns w → Mirrors (descend c ns) (descend' c ks) σ p (Holding σ w)

variable {descend : Context → List Node → Run (List Node)}
  {descend' : Context → List Key → StoreRun (List Key)}

/-- The content of a page in the store is the content of the page. -/
theorem mirrors_lay (hσ : σ.Closed) (url : Text) (page : List Node) :
    Mirrors (if s.options.anchorReferences then Run.ofUrl (Node.anchorAll url page) else pure page)
      (lay s url page) σ p fun ns ks τ => ∃ w, τ.Forest ks ns w ∧ ∀ j ∈ w, σ.cells.size ≤ j := by
  obtain ⟨w, hw, hnodup, hnew⟩ := Store.holds_plantAll σ page
  have hclosed := (Store.planted_plantAll (Nat.zero_le σ.cells.size) page).spares.closed hσ
  refine .change ?_
  split
  · have hy := hw.yields_anchor hnodup url
    have hspares := (σ.plantAll page).1.spares_zero_anchor url (σ.plantAll page).2
    rw [anchor, bind_assoc]
    refine .change ?_
    rcases hu : (σ.plantAll page).1.anchor url (σ.plantAll page).2 with ⟨τ, fault⟩
    rw [hu] at hy hspares
    cases hx : Node.anchorAll url page with
    | error f =>
      rw [hx] at hy
      cases hy
      exact ⟨rfl, rfl⟩
    | ok ns =>
      rw [hx] at hy
      obtain ⟨rfl, hτ⟩ := hy
      exact mirrors_pure ⟨w, ⟨hspares.closed hclosed, hτ, hnodup⟩, hnew⟩
  · exact mirrors_pure ⟨w, ⟨hclosed, hw, hnodup⟩, hnew⟩

theorem mirrors_visit (hd : Walks descend descend') (url : Text) (h : σ.Forest ks ns w) :
    Mirrors (Run.visit s descend c url ns) (visit s descend' c url ks) σ p (Holding σ w) := by
  unfold Run.visit visit
  dsimp only
  split
  · exact hd _ _ _ _ _ _ h
  · refine .read ?_
    rw [h.holds.imports_eq h.nodup]
    refine (mirrors_ofRun _ σ p).bind ?_
    rintro a _ _ q ⟨-, rfl, -⟩
    exact mirrors_pure (holding_self h)

/-- What an edit leaves in the place of a node. What is kept has the key that it had. -/
def Leaves (σ : Store) (w : List Key) (k : Key) (n : Node) (e : Edit) (js : List Key) (τ : Store) :
    Prop :=
  Holding σ w (e.apply n) js τ ∧ (e = .keep → js = [k])

theorem leaves_keep (h : σ.Forest [k] [n] w) : Leaves σ w k n .keep [k] σ := by
  refine ⟨?_, fun _ => rfl⟩
  rw [Edit.apply]
  exact holding_self h

theorem mirrors_splice (hd : Walks descend descend') (hd' : ∀ n, Descends n descend')
    (h : σ.Forest [k] [n] w) (o : Run.Order) (page : List Node) :
    Mirrors (Run.inlinePage s descend c n o page) (splice s descend' c k o page) σ p
      (Leaves σ w k n) := by
  have hk : k < σ.cells.size := (ready_of_forest h).nodes k List.mem_cons_self
  have hbefore : (σ.shell k).before = n.before := by
    have hshell : [σ.shell k] = [n.shell] := h.holds.map_shell
    rw [List.singleton_inj.1 hshell, Node.before_shell]
  refine ((mirrors_lay h.closed o.2 page).keeps
    (keeps_lay o.2 page ((ready_of_forest h).subset (List.nil_subset _)))).bind ?_
  rintro children ks τ q ⟨⟨v, hin, hnew⟩, hτ, -⟩
  refine ((mirrors_visit hd o.2 hin).keeps
    (keeps_visit (hd' τ.cells.size) o.2 (ready_of_forest hin))).bind ?_
  rintro content js υ r ⟨⟨u, hu, hnodup, hfrom⟩, hυ, -⟩
  have hsize : σ.cells.size ≤ υ.cells.size := Nat.le_trans hτ.size_le hυ.size_le
  have hup : ∀ j ∈ u, σ.cells.size ≤ j := fun j hj =>
    (hfrom j hj).elim (hnew j) (Nat.le_trans hτ.size_le)
  have hsame : (υ.shell k).before = n.before := by
    rw [← hbefore, Store.shell, Store.shell, hυ.same k (Nat.lt_of_lt_of_le hk hτ.size_le),
      hτ.same k hk]
  obtain ⟨x, hx, hxnodup, hxup⟩ := hu.replacement hnodup hup hsize hk hsame o.1
  refine .change ((mirrors_ofRun _ _ _).bind ?_)
  rintro a _ _ t ⟨-, rfl, -⟩
  refine mirrors_pure ⟨?_, fun hkeep => by cases hkeep⟩
  rw [Edit.apply]
  exact ⟨x, hx, hxnodup, fun j hj => .inr (hxup j hj)⟩

theorem mirrors_giveUp {url : Text} {f : Fault} (h : σ.Forest [k] [n] w) :
    Mirrors (Run.giveUp c url f) (giveUp c url f k) σ p (Leaves σ w k n) := by
  have hkeep : Run.giveUp c url f = Run.giveUp c url f >>= fun _ => pure .keep := by
    unfold Run.giveUp
    simp
  rw [hkeep]
  refine (mirrors_ofRun _ σ p).bind ?_
  rintro a _ _ q ⟨-, rfl, -⟩
  exact mirrors_pure (leaves_keep h)

theorem mirrors_inline (hd : Walks descend descend') (hd' : ∀ n, Descends n descend')
    (h : σ.Forest [k] [n] w) (o : Run.Order) :
    Mirrors (Run.inline s descend c n o) (inline s descend' c k o) σ p (Leaves σ w k n) := by
  rw [Run.inline_eq]
  refine (mirrors_ofRun _ σ p).bind ?_
  rintro answer _ _ q ⟨rfl, rfl, -⟩
  cases answer with
  | error f => exact mirrors_giveUp h
  | ok text =>
    dsimp only
    cases Sheet.parse text (some o.2) with
    | error f => exact mirrors_giveUp h
    | ok sheet => exact mirrors_splice hd hd' h o _

/-- What a list of edits leaves in the place of as many nodes. -/
def LeavesAll (σ : Store) (w ks : List Key) (ns : List Node) (es : List Edit) (js : List Key)
    (τ : Store) : Prop :=
  Holding σ w (Edit.applyAll ns es) js τ ∧
    ∀ (i : Nat) (k : Key), ks[i]? = some k → es[i]? = some .keep → k ∈ js

theorem length_of_orders {q : Progress} {os : List (Option Run.Order)}
    (h : Run.Ends (Run.orders s c ns) p (.ok os) q) : os.length = ns.length := by
  induction ns generalizing p q os with
  | nil =>
    cases (Run.ends_pure.1 h).1
    rfl
  | cons n ns ih =>
    rw [Run.orders] at h
    obtain ⟨o, r, -, h⟩ := Run.ends_bind_ok.1 h
    obtain ⟨os', r', hos, h⟩ := Run.ends_bind_ok.1 h
    cases (Run.ends_pure.1 h).1
    rw [List.length_cons, ih hos, List.length_cons]

/-- The results of two computations, one after the other. -/
theorem Holding.append {v : List Key} {υ : Store} {as bs : List Node} {is : List Key}
    (hvw : (v ++ w).Nodup) (hlt : ∀ j ∈ v ++ w, j < σ.cells.size)
    (hsize : σ.cells.size ≤ τ.cells.size) (ha : Holding σ v as is τ)
    (hs : τ.Spares τ.cells.size υ) (hb : Holding τ w bs js υ) :
    Holding σ (v ++ w) (as ++ bs) (is ++ js) υ := by
  obtain ⟨x, hx, hxnodup, hxin⟩ := ha
  obtain ⟨y, hy, hynodup, hyin⟩ := hb
  refine ⟨x ++ y, (hx.congr fun j hj => hs.same j (hx.lt_size j hj)).append hy, ?_, fun j hj => ?_⟩
  · refine List.nodup_append.2 ⟨hxnodup, hynodup, ?_⟩
    rintro j hjx _ hjy rfl
    have hjτ := hx.lt_size j hjx
    -- A key of both is in `w`, since all that came later is above it. So it is neither new nor in `v`.
    have hjw : j ∈ w := (hyin j hjy).resolve_right (Nat.not_le_of_lt hjτ)
    rcases hxin j hjx with hjv | hnew
    · exact (List.nodup_append.1 hvw).2.2 j hjv j hjw rfl
    · exact Nat.not_le_of_lt (hlt j (List.mem_append_right v hjw)) hnew
  · rcases List.mem_append.1 hj with hj | hj
    · exact (hxin j hj).imp (List.mem_append_left w) id
    · exact (hyin j hj).imp (List.mem_append_right v) (Nat.le_trans hsize)

variable {replace : Context → Node → Run.Order → Run Edit}
  {replace' : Context → Key → Run.Order → StoreRun (List Key)}

/-- Nodes are edited one after the other. None of them has more keys in its footprint than `depth`. -/
theorem mirrors_eachKey {f : Key → Option Run.Order → StoreRun (List Key)} {depth : Nat}
    (hf : ∀ k n w o σ p, σ.Forest [k] [n] w → w.length ≤ depth →
      Mirrors (Run.editNode s replace c n o) (f k o) σ p (Leaves σ w k n))
    (hf' : ∀ m k o σ, Ready m [k] σ → Keeps m (f k o) σ (Replaces m [k]))
    (h : σ.Forest ks ns w) (hdepth : w.length ≤ depth) {os : List (Option Run.Order)}
    (hos : os.length = ns.length) :
    Mirrors (Run.editNodes s replace c ns os) (eachKey f ks os) σ p (LeavesAll σ w ks ns) := by
  induction ns generalizing σ ks w os p with
  | nil =>
    obtain ⟨-, hholds, -⟩ := h
    cases hholds
    rw [Run.editNodes, eachKey]
    · refine mirrors_pure ⟨⟨[], ?_, List.nodup_nil, by simp⟩, by simp⟩
      rw [Edit.applyAll]
      exact .nil
    · simp
    · simp
  | cons n ns ih =>
    obtain ⟨o, os, rfl⟩ : ∃ o os', os = o :: os' := List.exists_cons_of_length_eq_add_one hos
    obtain ⟨k, js, v, w, rfl, rfl, hfirst, hrest⟩ := h.uncons
    have hlt := h.holds.lt_size
    rw [List.length_append] at hdepth
    rw [Run.editNodes, eachKey]
    refine ((hf k n v o σ p hfirst (by omega)).keeps
      (hf' _ k o σ (ready_of_forest hfirst))).bind ?_
    rintro e here τ q ⟨⟨hhere, hkept⟩, hτ, -⟩
    have hlater := hrest.later (fun j hj => hlt j (List.mem_append_right v hj)) hτ
    refine ((ih hlater (by omega) (by simpa using hos)).keeps
      (keeps_eachKey (fun k o σ => hf' _ k o σ) (ready_of_forest hlater) os)).bind ?_
    rintro es rest υ r ⟨⟨hthere, hothers⟩, hυ, -⟩
    refine mirrors_pure ⟨?_, fun i j hj he => ?_⟩
    · rw [Edit.applyAll]
      exact hhere.append h.nodup hlt hτ.size_le hυ hthere
    · cases i with
      | zero =>
        cases hj
        cases he
        rw [hkept rfl]
        exact List.mem_cons_self
      | succ i => exact List.mem_append_right here (hothers i j hj he)

theorem mirrors_resolveKey
    (hr : ∀ c k n w o σ p, σ.Forest [k] [n] w →
      Mirrors (replace c n o) (replace' c k o) σ p (Leaves σ w k n))
    (hr' : ∀ m c k o σ, Ready m [k] σ → Keeps m (replace' c k o) σ (Replaces m [k]))
    {depth : Nat} (h : σ.Forest [k] [n] w) (hdepth : w.length ≤ depth) (o : Option Run.Order) :
    Mirrors (Run.editNode s replace c n o) (resolveKey s replace' c depth k o) σ p
      (Leaves σ w k n) := by
  induction depth generalizing c k n w o σ p with
  | zero =>
    have hk := h.holds.subset List.mem_cons_self
    rw [List.eq_nil_of_length_eq_zero (Nat.le_zero.1 hdepth)] at hk
    cases hk
  | succ depth ih =>
    cases o with
    | some o =>
      rw [Run.editNode_order, resolveKey]
      exact hr c k n w o σ p h
    | none =>
      have hkeep := leaves_keep h
      have himport := h.holds.holdsImport_eq h.nodup
      obtain ⟨hclosed, hholds, hnodup⟩ := h
      cases hholds with
      | @cons _ _ v _ cell children _ hcell inside rest =>
        obtain ⟨-, rfl⟩ := rest.eq_nil
        rw [List.append_nil] at hnodup hdepth hkeep ⊢
        rw [resolveKey]
        refine .read ?_
        rw [hcell, himport]
        cases cell with
        | block before head kids after =>
          rw [Cell.node, Run.editNode_block]
          cases Run.holdsImport (.block before head children after) with
          | false => exact mirrors_pure hkeep
          | true =>
            have hin : σ.Forest kids children v := ⟨hclosed, inside, (List.nodup_cons.1 hnodup).2⟩
            refine (mirrors_ofRun _ σ p).bind ?_
            rintro - - _ q ⟨-, rfl, -⟩
            refine .read ?_
            rw [orders_of_forest hin]
            refine (mirrors_ofRun _ σ q).bind ?_
            rintro os _ _ r ⟨rfl, rfl, _, hos⟩
            have hlocal : ∀ m k o σ, Ready m [k] σ →
                Keeps m (resolveKey s replace' c depth k o) σ (Replaces m [k]) :=
              fun m k o σ hk => keeps_resolveKey (hr' m c) depth o hk
            refine ((mirrors_eachKey (fun k n w o σ p hk hw => ih hk hw o) hlocal hin
              (Nat.le_of_lt_succ hdepth) (length_of_orders hos)).keeps
                (keeps_eachKey (hlocal _) (ready_of_forest hin) os)).bind ?_
            rintro es new τ t ⟨⟨⟨x, hx, hxnodup, hxin⟩, -⟩, hτ, -⟩
            -- The block is copied: its key is new, and so it is not among those below it.
            refine .change (mirrors_pure ⟨⟨_, hx.add (c := .block before head new after),
              List.nodup_cons.2 ⟨hx.size_not_mem, hxnodup⟩, ?_⟩, fun h => by cases h⟩)
            rintro j hj
            rcases List.mem_cons.1 hj with rfl | hj
            · exact .inr hτ.size_le
            · exact (hxin j hj).imp (List.mem_cons_of_mem k) id
        | _ =>
          rw [Cell.node, Run.editNode_leaf]
          · exact mirrors_pure hkeep
          · simp [Node.items]

/-- What is left of the nodes in the end can be asked for in the middle. -/
theorem Mirrors.map {m : Run (List Edit)} {m' : StoreRun (List Key)}
    (h : Mirrors m m' σ p (LeavesAll σ w ks ns)) :
    Mirrors (return Edit.applyAll ns (← m)) m' σ p (Holding σ w) := by
  rw [← bind_pure m']
  exact h.bind fun es js τ q hj => mirrors_pure hj.1

/-- A run over shared nodes mirrors the run over the nodes that they are. -/
theorem mirrors_resolveKeys (s : Setup) (fuel : Nat) (c : Context) (h : σ.Forest ks ns w) :
    Mirrors (Run.edits s fuel c ns) (resolveKeys s fuel c ks) σ p (LeavesAll σ w ks ns) := by
  induction fuel generalizing c σ ks ns w p with
  | zero =>
    rw [Run.edits, resolveKeys]
    exact ⟨rfl, rfl⟩
  | succ fuel ih =>
    have hwalks : Walks (fun c ns => return Edit.applyAll ns (← Run.edits s fuel c ns))
        (resolveKeys s fuel) := fun c ks ns w σ p hin => (ih c hin).map
    have hspares (m : Nat) := descends_resolveKeys m s fuel
    have hspare : ∀ m c k o σ, Ready m [k] σ →
        Keeps m (inline s (resolveKeys s fuel) c k o) σ (Replaces m [k]) :=
      fun m c k o σ hk => keeps_inline (hspares m) o hk
    rw [Run.edits, resolveKeys]
    refine (mirrors_ofRun _ σ p).bind ?_
    rintro - - _ q ⟨-, rfl, -⟩
    refine .read ?_
    dsimp only
    rw [orders_of_forest h]
    refine (mirrors_ofRun _ σ q).bind ?_
    rintro os _ _ r ⟨rfl, rfl, _, hos⟩
    have hinline := fun c k n w o (σ : Store) p (hk : σ.Forest [k] [n] w) =>
      mirrors_inline (s := s) (c := c) (p := p) hwalks hspares hk o
    exact mirrors_eachKey (fun k n w o σ p hk hw => mirrors_resolveKey hinline hspare hk hw o)
      (fun m k o σ hk => keeps_resolveKey (hspare m c) _ o hk) h (h.holds.length_le h.nodup)
      (length_of_orders hos)

end StoreRun

end StyleSplice
