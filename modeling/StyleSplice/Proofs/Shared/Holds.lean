import Mathlib.Data.List.Perm.Subperm
import StyleSplice.Proofs.Shared.Store

/-!
# Trees in a store

Some keys hold some nodes if their cells say so, all the way down. The keys of all these nodes, in the
order of the text, are the footprint of the nodes. As long as no key comes up in it twice, a change at
a key changes one node, and a change that stays out of it changes none.
-/

namespace StyleSplice

/-- The node without what is below it. -/
def Node.shell : Node → Node
  | .block before h _ after => .block before h [] after
  | n => n

namespace Node

@[simp] theorem atHead?_shell (n : Node) : n.shell.atHead? = n.atHead? := by
  cases n with
  | block before h children after => cases h <;> rfl
  | _ => rfl

@[simp] theorem isAtRuleNamed_shell (name : Text) (n : Node) :
    n.shell.isAtRuleNamed name = n.isAtRuleNamed name := by
  rw [isAtRuleNamed, atHead?_shell, ← isAtRuleNamed]

@[simp] theorem before_shell (n : Node) : n.shell.before = n.before := by cases n <;> rfl

@[simp] theorem ofNode?_shell (n : Node) (origin : Option Text) :
    Import.ofNode? n.shell origin = Import.ofNode? n origin := by cases n <;> rfl

theorem walk_eq (n : Node) : n.walk = n :: walkAll n.children := by
  cases n <;> simp [walk, children]

end Node

@[simp] theorem Cell.shell_node (c : Cell) (ns : List Node) : (c.node ns).shell = c.node [] := by
  cases c <;> rfl

namespace Store

/-- The keys hold the nodes, with the footprint that comes last. -/
inductive Holds (s : Store) : List Key → List Node → List Key → Prop
  | nil : Holds s [] [] []
  | cons {k : Key} {js v w : List Key} {c : Cell} {children ns : List Node}
    (cell : s.cell? k = some c) (inside : Holds s c.children children v) (rest : Holds s js ns w) :
    Holds s (k :: js) (c.node children :: ns) (k :: (v ++ w))

variable {s t : Store} {k : Key} {ks js v w : List Key} {c : Cell} {n : Node} {ns ms : List Node}

namespace Holds

theorem eq_nil (h : s.Holds [] ns w) : ns = [] ∧ w = [] := by
  cases h
  exact ⟨rfl, rfl⟩

/-- Nothing is held inside a cell that has no children. -/
theorem children_node (h : s.Holds c.children ns w) : (c.node ns).children = ns := by
  cases c with
  | block => rfl
  | _ => exact h.eq_nil.1.symm

/-- The nodes are found in every store that agrees on the footprint. -/
theorem congr (h : s.Holds ks ns w) (hs : ∀ k ∈ w, t.cell? k = s.cell? k) : t.Holds ks ns w := by
  induction h with
  | nil => exact .nil
  | cons cell _ _ hinside hrest =>
    refine .cons ((hs _ List.mem_cons_self).trans cell) (hinside fun k hk => ?_) (hrest fun k hk => ?_)
    · exact hs k (List.mem_cons_of_mem _ (List.mem_append_left _ hk))
    · exact hs k (List.mem_cons_of_mem _ (List.mem_append_right _ hk))

theorem append (h : s.Holds ks ns v) (h' : s.Holds js ms w) :
    s.Holds (ks ++ js) (ns ++ ms) (v ++ w) := by
  induction h with
  | nil => exact h'
  | cons cell inside _ _ ih =>
    have hc := Holds.cons cell inside ih
    rwa [← List.append_assoc] at hc

theorem lt_size (h : s.Holds ks ns w) : ∀ k ∈ w, k < s.cells.size := by
  induction h with
  | nil => simp
  | cons cell _ _ hinside hrest =>
    intro k hk
    rcases List.mem_cons.1 hk with rfl | hk
    · exact lt_size_of_cell? cell
    · exact (List.mem_append.1 hk).elim (hinside k) (hrest k)

theorem subset (h : s.Holds ks ns w) : ks ⊆ w := by
  induction h with
  | nil => exact List.Subset.refl _
  | cons _ _ _ _ ih =>
    exact List.cons_subset_cons _ (List.Subset.trans ih (List.subset_append_right _ _))

theorem length_le (h : s.Holds ks ns w) (hw : w.Nodup) : w.length ≤ s.cells.size := by
  have hsub : w ⊆ List.range s.cells.size := fun k hk => List.mem_range.2 (h.lt_size k hk)
  simpa using (List.subperm_of_subset hw hsub).length_le

theorem map_shell (h : s.Holds ks ns w) : ks.map s.shell = ns.map Node.shell := by
  induction h with
  | nil => rfl
  | cons cell _ _ _ ih => simp [shell, cell, ih]

theorem map_shell_footprint (h : s.Holds ks ns w) :
    w.map s.shell = (Node.walkAll ns).map Node.shell := by
  induction h with
  | nil => rfl
  | cons cell inside _ hinside hrest =>
    simp [shell, cell, Node.walk_eq, inside.children_node, hinside, hrest]

/-- Deep enough, a walk comes to the footprint and to the nodes. -/
theorem within_eq (h : s.Holds ks ns w) {depth : Nat} (hd : w.length ≤ depth) :
    s.walkWithin depth ks = w ∧ s.nodesWithin depth ks = ns := by
  induction h generalizing depth with
  | nil => cases depth <;> exact ⟨rfl, rfl⟩
  | @cons k js v w c children ns cell _ _ hinside hrest =>
    obtain ⟨depth, rfl⟩ : ∃ d, depth = d + 1 := ⟨depth - 1, by simp at hd; omega⟩
    simp only [List.length_cons, List.length_append] at hd
    obtain ⟨hbelow, hchildren⟩ := @hinside depth (by omega)
    obtain ⟨hwalk, hnodes⟩ := @hrest (depth + 1) (by omega)
    rw [walkWithin] at hwalk ⊢
    rw [nodesWithin] at hnodes ⊢
    rw [List.flatMap_cons, childrenOf_eq cell, hbelow, hwalk,
      List.filterMap_cons_some (by rw [cell, Option.map_some]), hchildren, hnodes]
    exact ⟨rfl, rfl⟩

theorem walk_eq (h : s.Holds ks ns w) (hw : w.Nodup) : s.walk ks = w :=
  (h.within_eq (h.length_le hw)).1

theorem nodes_eq (h : s.Holds ks ns w) (hw : w.Nodup) : s.nodes ks = ns :=
  (h.within_eq (h.length_le hw)).2

/-- Whether a block is entered can be seen in the store. -/
theorem holdsImport_eq (h : s.Holds [k] [n] w) (hw : w.Nodup) :
    s.holdsImport k = Run.holdsImport n := by
  cases h with
  | @cons _ _ v _ c children _ cell inside rest =>
    obtain ⟨-, rfl⟩ := rest.eq_nil
    have hv : v.Nodup := by simpa using (List.nodup_cons.1 hw).2
    have hany := congrArg (List.any · (Node.isAtRuleNamed "import".toList)) inside.map_shell_footprint
    rw [holdsImport, Run.holdsImport, childrenOf_eq cell, inside.walk_eq hv, inside.children_node]
    simpa [List.any_map, Function.comp_def] using hany

/-- The imports among the nodes are those that are read off the store. -/
theorem imports_eq (h : s.Holds ks ns w) (hw : w.Nodup) (origin : Option Text) :
    ((s.imports ks origin).map fun x => (x.1, s.shell x.2)) = Import.findAll ns origin := by
  have hcell : (s.imports ks origin).map (fun x => (x.1, s.shell x.2)) =
      (w.map s.shell).filterMap fun n => (Import.ofNode? n origin).map fun d => (d, n) := by
    rw [imports, h.walk_eq hw, List.map_filterMap, List.filterMap_map]
    refine List.filterMap_congr fun k hk => ?_
    obtain ⟨c, hc⟩ := exists_cell? (h.lt_size k hk)
    simp [shell, hc, Function.comp_def]
  rw [hcell, h.map_shell_footprint, List.filterMap_map, Import.findAll]
  refine List.filterMap_congr fun n _ => ?_
  cases hd : Import.ofNode? n origin with
  | none => simp [hd]
  | some d =>
    obtain ⟨before, head, semicolon, rfl, -⟩ := Import.ofNode?_eq_some_iff.1 hd
    simp [Node.shell, hd]

/-- A selection of the nodes by what can be seen without their children. -/
theorem filter {p : Node → Bool} (h : s.Holds ks ns w) (hp : ∀ n ∈ ns, p n.shell = p n) :
    ∃ v, v.Sublist w ∧ s.Holds (ks.filter fun k => p (s.shell k)) (ns.filter p) v := by
  induction h with
  | nil => exact ⟨[], List.Sublist.refl _, .nil⟩
  | @cons k js v w c children ns cell inside _ _ ih =>
    obtain ⟨u, hu, hrest⟩ := ih fun n hn => hp n (List.mem_cons_of_mem _ hn)
    have hk : p (s.shell k) = p (c.node children) := by
      rw [← hp _ List.mem_cons_self]
      simp [shell, cell]
    by_cases hkeep : p (c.node children) = true
    · simp only [List.filter_cons, hk, hkeep, if_true]
      exact ⟨k :: (v ++ u), (List.Sublist.append (List.Sublist.refl v) hu).cons_cons k,
        .cons cell inside hrest⟩
    · simp only [List.filter_cons, hk, hkeep]
      exact ⟨u, (hu.trans (List.sublist_append_right v w)).cons k, hrest⟩

/-- A node in whose cell the children stay the same is another node with the same children. -/
theorem set_head (h : s.Holds (k :: js) (n :: ns) (k :: w)) (hk : k ∉ w) (d : Cell)
    (hd : ∀ c, s.cell? k = some c → d.children = c.children) :
    (s.set k d).Holds (k :: js) (d.node n.children :: ns) (k :: w) := by
  cases h with
  | @cons _ _ u v c children _ cell inside rest =>
    have hother : ∀ j ∈ u ++ v, (s.set k d).cell? j = s.cell? j := by
      intro j hj
      refine cell?_set_of_ne ?_ d
      rintro rfl
      exact hk hj
    have hin : (s.set k d).Holds d.children children u := by
      rw [hd c cell]
      exact inside.congr fun j hj => hother j (List.mem_append_left v hj)
    rw [inside.children_node]
    exact .cons (cell?_set_self (lt_size_of_cell? cell) d) hin
      (rest.congr fun j hj => hother j (List.mem_append_right u hj))

/-- The first node gets another text in front of it. -/
theorem leadWith (h : s.Holds (k :: js) (n :: ns) (k :: w)) (hk : k ∉ w) (before : Text) :
    (s.leadWith before k).Holds (k :: js) (n.withBefore before :: ns) (k :: w) := by
  obtain ⟨c, hc⟩ := exists_cell? (h.lt_size k List.mem_cons_self)
  have hn : n.shell = c.node [] := by
    cases h with
    | cons cell _ _ =>
      rw [hc] at cell
      cases cell
      simp
  have hset := h.set_head hk (.ofNode c.children ((c.node []).withBefore before)) fun c' hc' => by
    rw [hc] at hc'
    cases hc'
    cases c <;> rfl
  have hnode : (Cell.ofNode c.children ((c.node []).withBefore before)).node n.children =
      n.withBefore before := by
    rw [← hn]
    cases n <;> rfl
  rw [Store.leadWith, hc]
  rwa [hnode] at hset

/-- A new node around nodes that are held. -/
theorem add (h : s.Holds c.children ns w) :
    (s.add c).1.Holds [s.cells.size] [c.node ns] (s.cells.size :: w) := by
  have hin : (s.add c).1.Holds c.children ns w := h.congr fun k hk => cell?_add_of_lt (h.lt_size k hk)
  have hadd := Holds.cons (cell?_add_self s c) hin .nil
  rwa [List.append_nil] at hadd

theorem size_not_mem (h : s.Holds ks ns w) : s.cells.size ∉ w := fun hk =>
  Nat.lt_irrefl _ (h.lt_size _ hk)

end Holds

/-- The keys hold the nodes in a closed store, and no key comes up twice. -/
structure Forest (s : Store) (ks : List Key) (ns : List Node) (w : List Key) : Prop where
  closed : s.Closed
  holds : s.Holds ks ns w
  nodup : w.Nodup

/-- The first of the nodes, and the others. -/
theorem Forest.uncons (h : s.Forest ks (n :: ns) w) : ∃ k js u v, ks = k :: js ∧ w = u ++ v ∧
    s.Forest [k] [n] u ∧ s.Forest js ns v := by
  obtain ⟨hclosed, hholds, hnodup⟩ := h
  cases hholds with
  | @cons k js u v c children _ cell inside rest =>
    have hsplit : (k :: u ++ v).Nodup := hnodup
    obtain ⟨hu, hv, -⟩ := List.nodup_append.1 hsplit
    have hfirst := Holds.cons cell inside .nil
    rw [List.append_nil] at hfirst
    exact ⟨k, js, k :: u, v, rfl, rfl, ⟨hclosed, hfirst, hu⟩, hclosed, rest, hv⟩

/-- A forest is still there after a change that spares it. -/
theorem Forest.later {m : Nat} (h : s.Forest ks ns w) (hm : ∀ k ∈ w, k < m) (hs : s.Spares m t) :
    t.Forest ks ns w :=
  ⟨hs.closed h.closed, h.holds.congr fun k hk => hs.same k (hm k hk), h.nodup⟩

mutual

theorem holds_plant (s : Store) (n : Node) : ∃ w, (s.plant n).1.Holds [(s.plant n).2] [n] w ∧
    w.Nodup ∧ ∀ k ∈ w, s.cells.size ≤ k := by
  have hleaf (c : Cell) (hc : c.children = []) : ∃ w,
      (s.add c).1.Holds [s.cells.size] [c.node []] w ∧ w.Nodup ∧ ∀ k ∈ w, s.cells.size ≤ k :=
    ⟨[s.cells.size], .add (by rw [hc]; exact .nil), by simp, by simp⟩
  cases n with
  | comment before body => exact hleaf (.comment before body) rfl
  | declaration d => exact hleaf (.declaration d) rfl
  | statement before h semicolon => exact hleaf (.statement before h semicolon) rfl
  | block before h ns after =>
    obtain ⟨w, hw, hnodup, hnew⟩ := holds_plantAll s ns
    have hspares := (planted_plantAll (Nat.le_refl s.cells.size) ns).spares
    rw [plant]
    refine ⟨_, .add (c := .block before h _ after) hw, List.nodup_cons.2 ⟨hw.size_not_mem, hnodup⟩, ?_⟩
    exact List.forall_mem_cons.2 ⟨hspares.size_le, hnew⟩

/-- Planted nodes are held by their keys, all of which are new. -/
theorem holds_plantAll (s : Store) (ns : List Node) :
    ∃ w, (s.plantAll ns).1.Holds (s.plantAll ns).2 ns w ∧ w.Nodup ∧ ∀ k ∈ w, s.cells.size ≤ k := by
  cases ns with
  | nil => exact ⟨[], by rw [plantAll]; exact .nil, List.nodup_nil, by simp⟩
  | cons n ns =>
    obtain ⟨v, hv, hvnodup, hvnew⟩ := holds_plant s n
    obtain ⟨w, hw, hwnodup, hwnew⟩ := holds_plantAll (s.plant n).1 ns
    have hspares := (planted_plantAll (Nat.le_refl (s.plant n).1.cells.size) ns).spares
    have hsize := (planted_plant (Nat.le_refl s.cells.size) n).spares.size_le
    refine ⟨v ++ w, ?_, ?_, ?_⟩
    · rw [plantAll]
      exact (hv.congr fun k hk => hspares.same k (hv.lt_size k hk)).append hw
    · refine List.nodup_append.2 ⟨hvnodup, hwnodup, fun a ha b hb hab => ?_⟩
      have hlt := hv.lt_size a ha
      have hle := hwnew b hb
      exact absurd (hab ▸ hle) (Nat.not_le_of_lt hlt)
    · exact List.forall_mem_append.2 ⟨hvnew, fun k hk => Nat.le_trans hsize (hwnew k hk)⟩

end

section Update

variable {ε : Type} {f : Node → Except ε Node}

/-- A change of single nodes that is meant for those without children. -/
structure Leafwise (f : Node → Except ε Node) : Prop where
  block : ∀ before h after, f (.block before h [] after) = .ok (.block before h [] after)
  leaf : ∀ n m, f n = .ok m → n.children = [] → m.children = []

theorem leafwise_anchoredValue (origin : Text) : Leafwise (Node.anchoredValue origin) where
  block _ _ _ := rfl
  leaf n m h hn := by
    rcases Node.eq_of_anchoredValue h with rfl | ⟨d, value, rfl, rfl⟩
    · exact hn
    · rfl

theorem leafwise_anchoredImport (origin : Text) : Leafwise (Node.anchoredImport origin) where
  block _ _ _ := rfl
  leaf n m h hn := by
    rcases Node.eq_of_anchoredImport h with rfl | ⟨_, _, _, _, _, -, -, -, -, -, -, rfl⟩
    · exact hn
    · rfl

theorem update_append (s : Store) (v w : List Key) : s.update f (v ++ w) =
    match s.update f v with
    | (t, none) => t.update f w
    | (t, some e) => (t, some e) := by
  induction v generalizing s with
  | nil => rfl
  | cons k v ih =>
    rw [List.cons_append, update, update]
    cases s.cell? k with
    | none => exact ih s
    | some c =>
      dsimp only
      cases f (c.node []) with
      | error e => rfl
      | ok n => exact ih _

theorem cell?_update_of_not_mem (h : k ∉ w) : (s.update f w).1.cell? k = s.cell? k := by
  induction w generalizing s with
  | nil => rfl
  | cons j w ih =>
    obtain ⟨hne, hk⟩ := not_or.1 (mt List.mem_cons.2 h)
    rw [update]
    cases s.cell? j with
    | none => exact ih hk
    | some c =>
      dsimp only
      cases f (c.node []) with
      | error e => rfl
      | ok n => exact (ih hk).trans (cell?_set_of_ne hne _)

/-- An update at the keys of a footprint comes to the nodes that the pure change comes to, or fails
with the same fault. -/
def Yields (ks w : List Key) (u : Store × Option ε) : Except ε (List Node) → Prop
  | .ok ms => u.2 = none ∧ u.1.Holds ks ms w
  | .error e => u.2 = some e

/-- Two updates, one after the other, of nodes that have no key in common. -/
theorem Yields.append {x y : Except ε (List Node)} (hx : Yields ks v (t.update f v) x)
    (hy : ∀ u : Store, (∀ j, j ∉ v → u.cell? j = t.cell? j) → Yields js w (u.update f w) y)
    (hdisj : List.Disjoint v w) :
    Yields (ks ++ js) (v ++ w) (t.update f (v ++ w)) (x.bind fun ms => y.map (ms ++ ·)) := by
  rw [update_append]
  have hkept : ∀ j, j ∉ v → (t.update f v).1.cell? j = t.cell? j :=
    fun j hj => cell?_update_of_not_mem hj
  rcases hu : t.update f v with ⟨u, fault⟩
  rw [hu] at hx hkept
  cases x with
  | error e =>
    cases hx
    rfl
  | ok ms =>
    obtain ⟨rfl, hms⟩ := hx
    have hrest := hy u hkept
    cases y with
    | error e => exact hrest
    | ok ns =>
      refine ⟨hrest.1, (hms.congr fun j hj => ?_).append hrest.2⟩
      exact cell?_update_of_not_mem fun hjw => hdisj hj hjw

theorem set_of_cell? (h : s.cell? k = some c) : s.set k c = s := by
  obtain ⟨hk, rfl⟩ := Array.getElem?_eq_some_iff.1 h
  simp [set, Array.setIfInBounds, hk]

/-- A block is left as it is, but for its children. -/
theorem yields_block (hf : Leafwise f) {before after : Text} {h : Head} (hk : k ∉ w)
    (hcell : t.cell? k = some (.block before h ks after)) {x : Except ε (List Node)}
    (hx : Yields ks w (t.update f w) x) :
    Yields [k] (k :: w) (t.update f (k :: w)) (x.map fun ms => [.block before h ms after]) := by
  have hstep : t.update f (k :: w) = t.update f w := by
    rw [update, hcell]
    simp only [Cell.node, hf.block, Cell.children, Cell.ofNode, set_of_cell? hcell]
  rw [hstep]
  cases x with
  | error e => exact hx
  | ok ms =>
    have hsame := (cell?_update_of_not_mem (f := f) (s := t) hk).trans hcell
    have hblock := Holds.cons hsame hx.2 .nil
    rw [List.append_nil] at hblock
    exact ⟨hx.1, hblock⟩

theorem yields_leaf (hf : Leafwise f) (hcell : t.cell? k = some c) (hc : c.children = []) :
    Yields [k] [k] (t.update f [k]) ((f (c.node [])).map fun m => [m]) := by
  rw [update, hcell]
  dsimp only
  cases hm : f (c.node []) with
  | error e => rfl
  | ok m =>
    have hchildren : (c.node []).children = [] := by cases c <;> rfl
    have hnode : (Cell.ofNode [] m).node [] = m := by
      rw [← hf.leaf _ m hm hchildren, Cell.node_ofNode]
    have hset : (t.set k (.ofNode [] m)).Holds [k] [(Cell.ofNode [] m).node []] [k] :=
      .cons (cell?_set_self (lt_size_of_cell? hcell) _)
        (by rw [List.eq_nil_of_subset_nil (children_ofNode_subset [] m)]; exact .nil) .nil
    rw [hnode] at hset
    rw [hc]
    exact ⟨rfl, hset⟩

theorem mapAllLeavesM_cons (f : Node → Except ε Node) (n : Node) (ns : List Node) :
    Node.mapAllLeavesM f (n :: ns) = ((n.mapLeavesM f).map fun m => [m]).bind fun ms =>
      (Node.mapAllLeavesM f ns).map (ms ++ ·) := by
  rw [Node.mapAllLeavesM]
  cases n.mapLeavesM f with
  | error e => rfl
  | ok m => cases Node.mapAllLeavesM f ns <;> rfl

/-- An update at the keys of a footprint changes the leaves of the nodes. -/
theorem Holds.yields_update (hf : Leafwise f) (h : s.Holds ks ns w) (hw : w.Nodup)
    (ht : ∀ k ∈ w, t.cell? k = s.cell? k) :
    Yields ks w (t.update f w) (Node.mapAllLeavesM f ns) := by
  induction h generalizing t with
  | nil => exact ⟨rfl, .nil⟩
  | @cons k js v w c children ns cell inside rest hinside hrest =>
    obtain ⟨hk, hvw⟩ := List.nodup_cons.1 hw
    obtain ⟨hv, hw, hdisj⟩ := List.nodup_append.1 hvw
    have hcell := (ht k List.mem_cons_self).trans cell
    have hfirst : Yields [k] (k :: v) (t.update f (k :: v))
        (((c.node children).mapLeavesM f).map fun m => [m]) := by
      have hin := hinside (t := t) hv fun j hj => ht j (by simp [hj])
      cases c with
      | block before head kids after =>
        have hblock := yields_block hf (fun hkv => hk (List.mem_append_left w hkv)) hcell hin
        rw [Cell.node, Node.mapLeavesM]
        cases hx : Node.mapAllLeavesM f children <;> rw [hx] at hblock <;> exact hblock
      | _ =>
        obtain ⟨rfl, rfl⟩ := inside.eq_nil
        exact yields_leaf hf hcell rfl
    rw [mapAllLeavesM_cons]
    refine hfirst.append (fun u hu => hrest hw fun j hj => ?_) fun j hj hjw => ?_
    · have hjk : j ∉ k :: v := fun hjk => by
        rcases List.mem_cons.1 hjk with rfl | hjv
        · exact hk (List.mem_append_right v hj)
        · exact hdisj j hjv j hj rfl
      exact (hu j hjk).trans (ht j (by simp [hj]))
    · rcases List.mem_cons.1 hj with rfl | hj
      · exact hk (List.mem_append_right v hjw)
      · exact hdisj j hj j hjw rfl

end Update

/-- References are resolved in the store as they are in the nodes. -/
theorem Holds.yields_anchor (h : s.Holds ks ns w) (hw : w.Nodup) (origin : Text) :
    Yields ks w (s.anchor origin ks) (Node.anchorAll origin ns) := by
  have hvalues := h.yields_update (leafwise_anchoredValue origin) hw fun _ _ => rfl
  rw [Store.anchor, Node.anchorAll, h.walk_eq hw]
  rcases hu : s.update (Node.anchoredValue origin) w with ⟨t, fault⟩
  rw [hu] at hvalues
  cases hx : Node.mapAllLeavesM (Node.anchoredValue origin) ns with
  | error e =>
    rw [hx] at hvalues
    cases hvalues
    rfl
  | ok ms =>
    rw [hx] at hvalues
    obtain ⟨rfl, ht⟩ := hvalues
    dsimp only
    rw [ht.walk_eq hw]
    exact ht.yields_update (leafwise_anchoredImport origin) hw fun _ _ => rfl

namespace Holds

/-- A block around nodes whose keys come up once each. -/
theorem wrapIn (h : s.Holds ks ns w) (hw : w.Nodup) (head : AtHead) :
    (s.wrapIn head ks).1.Holds [(s.wrapIn head ks).2] [Node.wrapIn head ns]
      (s.cells.size :: w) := by
  cases h with
  | nil => exact Holds.add (c := .block [] (.atRule head) [] ['\n']) .nil
  | @cons k js u v c children ns cell inside rest =>
    have hall := Holds.cons cell inside rest
    have hbefore : (c.node []).before = (c.node children).before := by
      rw [← Cell.shell_node c children, Node.before_shell]
    rw [Store.wrapIn, cell]
    dsimp only
    rw [hbefore, Node.wrapIn]
    split
    · have hlead := hall.leadWith (List.nodup_cons.1 hw).1 ['\n']
      have hsize : (s.leadWith ['\n'] k).cells.size = s.cells.size := by
        rw [Store.leadWith, cell]
        exact size_set _ _ _
      rw [← hsize]
      exact hlead.add (c := .block [] (.atRule head) (k :: js) ['\n'])
    · exact hall.add (c := .block [] (.atRule head) (k :: js) ['\n'])

/-- Blocks around nodes, the innermost first. -/
theorem wrapAll (h : s.Holds ks ns w) (hw : w.Nodup) (heads : List AtHead) :
    ∃ u, (s.wrapAll ks heads).1.Holds (s.wrapAll ks heads).2
        (heads.foldl (fun ns h => [Node.wrapIn h ns]) ns) u ∧
      u.Nodup ∧ ∀ k ∈ u, k ∈ w ∨ s.cells.size ≤ k := by
  induction heads generalizing s ks ns w with
  | nil => exact ⟨w, h, hw, fun _ => .inl⟩
  | cons head heads ih =>
    have hsize : s.cells.size ≤ (s.wrapIn head ks).1.cells.size :=
      (planted_wrapIn head (Nat.zero_le _) fun k hk =>
        ⟨Nat.zero_le k, h.lt_size k (h.subset hk)⟩).1.size_le
    obtain ⟨u, hu, hnodup, hin⟩ :=
      ih (h.wrapIn hw head) (List.nodup_cons.2 ⟨h.size_not_mem, hw⟩)
    refine ⟨u, hu, hnodup, fun k hk => ?_⟩
    rcases hin k hk with hk | hk
    · exact (List.mem_cons.1 hk).elim (fun he => .inr (Nat.le_of_eq he.symm)) .inl
    · exact .inr (Nat.le_trans hsize hk)

/-- What takes the place of an import in the store is what takes its place in the sheet. -/
theorem replacement {m : Nat} (h : s.Holds ks ns w) (hw : w.Nodup) (hnew : ∀ j ∈ w, m ≤ j)
    (hm : m ≤ s.cells.size) (hk : k < m) (hn : (s.shell k).before = n.before) (d : Import) :
    ∃ u, (s.replacement d k ks).1.Holds (s.replacement d k ks).2 (Run.replacement d n ns) u ∧
      u.Nodup ∧ ∀ j ∈ u, m ≤ j := by
  obtain ⟨v, hsub, hkept⟩ := h.filter (p := fun n => !Run.isCharset n)
    fun n _ => by simp [Run.isCharset]
  obtain ⟨u, hu, hnodup, hin⟩ := hkept.wrapAll (hw.sublist hsub) d.wrappers
  have hup : ∀ j ∈ u, m ≤ j := fun j hj =>
    (hin j hj).elim (fun hj => hnew j (hsub.subset hj)) (Nat.le_trans hm)
  have hup' : ∀ j ∈ ks.filter fun j => !Run.isCharset (s.shell j), m ≤ j ∧ j < s.cells.size :=
    fun j hj =>
      have hmem := h.subset (List.mem_filter.1 hj).1
      ⟨hnew j hmem, h.lt_size j hmem⟩
  have hsame := (planted_wrapAll d.wrappers hm hup').1.same k hk
  rw [Store.replacement, Run.replacement, Import.wrap]
  rcases hall : s.wrapAll (ks.filter fun j => !Run.isCharset (s.shell j)) d.wrappers with ⟨t, js⟩
  rw [hall] at hu hsame
  have hfront : (t.shell k).before = n.before := by rw [← hn, shell, shell, hsame]
  generalize d.wrappers.foldl _ _ = ms at hu
  cases hu with
  | nil => exact ⟨[], .nil, List.nodup_nil, by simp⟩
  | @cons j js v w c children ns cell inside rest =>
    have hlead := (Holds.cons cell inside rest).leadWith (List.nodup_cons.1 hnodup).1
      (t.shell k).before
    dsimp only
    rw [hfront] at hlead ⊢
    exact ⟨_, hlead, hnodup, hup⟩

end Holds

end Store

end StyleSplice
