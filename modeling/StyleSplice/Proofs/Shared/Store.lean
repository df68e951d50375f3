import StyleSplice.Shared.Resolve

/-!
# Changes of a store

A store only grows, and a change of it concerns few of its nodes. What is planted is above all that
was there before and leads to nothing below, so whoever changes it in place spares every older node.
-/

namespace StyleSplice

namespace Store

variable {n m : Nat} {s t u : Store} {k j : Key} {ks : List Key} {c : Cell}

/-- The keys that can be reached from some keys. -/
inductive Reaches (s : Store) (ks : List Key) : Key → Prop
  | root {k : Key} (mem : k ∈ ks) : Reaches s ks k
  | child {k j : Key} (above : Reaches s ks k) (mem : j ∈ s.childrenOf k) : Reaches s ks j

/-- Every child of a node is a node. -/
def Closed (s : Store) : Prop := ∀ k c, s.cell? k = some c → ∀ j ∈ c.children, j < s.cells.size

/-- The nodes from the number `n` on have no child below it. -/
def Upper (n : Nat) (s : Store) : Prop := ∀ k, n ≤ k → ∀ j ∈ s.childrenOf k, n ≤ j

/-- The store `t` comes of `s` by changes that leave the first `n` nodes as they are. -/
structure Spares (n : Nat) (s t : Store) : Prop where
  size_le : s.cells.size ≤ t.cells.size
  same : ∀ k < n, t.cell? k = s.cell? k
  closed : s.Closed → t.Closed

theorem cell?_eq_none_iff : s.cell? k = none ↔ s.cells.size ≤ k := Array.getElem?_eq_none_iff

theorem lt_size_of_cell? (h : s.cell? k = some c) : k < s.cells.size := by
  refine Nat.lt_of_not_le fun hk => ?_
  rw [cell?_eq_none_iff.2 hk] at h
  cases h

theorem exists_cell? (h : k < s.cells.size) : ∃ c, s.cell? k = some c :=
  ⟨s.cells[k], Array.getElem?_eq_getElem h⟩

theorem childrenOf_eq (h : s.cell? k = some c) : s.childrenOf k = c.children := by
  rw [childrenOf, h]
  rfl

theorem childrenOf_congr (h : t.cell? k = s.cell? k) : t.childrenOf k = s.childrenOf k := by
  rw [childrenOf, h]
  rfl

@[simp] theorem size_add (s : Store) (c : Cell) : (s.add c).1.cells.size = s.cells.size + 1 := by
  simp [add]

@[simp] theorem key_add (s : Store) (c : Cell) : (s.add c).2 = s.cells.size := rfl

@[simp] theorem cell?_add_self (s : Store) (c : Cell) : (s.add c).1.cell? s.cells.size = some c := by
  simp [cell?, add]

@[simp] theorem size_set (s : Store) (k : Key) (c : Cell) : (s.set k c).cells.size = s.cells.size := by
  simp [set]

theorem cell?_set_of_ne (h : j ≠ k) (c : Cell) : (s.set k c).cell? j = s.cell? j := by
  simp [cell?, set, Ne.symm h]

theorem cell?_set_self (h : k < s.cells.size) (c : Cell) : (s.set k c).cell? k = some c := by
  simp [cell?, set, h]

/-- What a closed store reaches from its nodes are nodes. -/
theorem Closed.lt_of_reaches (hs : s.Closed) (hks : ∀ k ∈ ks, k < s.cells.size)
    (h : s.Reaches ks k) : k < s.cells.size := by
  induction h with
  | root mem => exact hks _ mem
  | @child k j _ mem ih =>
    obtain ⟨c, hc⟩ := exists_cell? ih
    rw [childrenOf_eq hc] at mem
    exact hs k c hc j mem

theorem upper_size (s : Store) : s.Upper s.cells.size := by
  intro k hk j hj
  rw [childrenOf, cell?_eq_none_iff.2 hk] at hj
  cases hj

theorem Upper.add (hs : s.Upper n) (hc : ∀ j ∈ c.children, n ≤ j) : (s.add c).1.Upper n := by
  intro k hk j hj
  rcases Nat.lt_trichotomy k s.cells.size with hlt | rfl | hgt
  · rw [childrenOf_congr (cell?_add_of_lt hlt)] at hj
    exact hs k hk j hj
  · rw [childrenOf_eq (cell?_add_self s c)] at hj
    exact hc j hj
  · rw [childrenOf, cell?_eq_none_iff.2 (by rw [size_add]; omega)] at hj
    cases hj

/-- Whoever walks from the upper nodes stays among them. -/
theorem Upper.le_of_mem_walkWithin (hs : s.Upper n) {depth : Nat} (hks : ∀ k ∈ ks, n ≤ k)
    (h : j ∈ s.walkWithin depth ks) : n ≤ j := by
  induction depth generalizing ks with
  | zero => cases h
  | succ depth ih =>
    rw [walkWithin, List.mem_flatMap] at h
    obtain ⟨k, hk, hj⟩ := h
    rcases List.mem_cons.1 hj with rfl | hj
    · exact hks _ hk
    · exact ih (hs k (hks k hk)) hj

namespace Spares

theorem refl (n : Nat) (s : Store) : s.Spares n s := ⟨Nat.le_refl _, fun _ _ => rfl, id⟩

theorem trans (h : s.Spares n t) (h' : t.Spares n u) : s.Spares n u :=
  ⟨Nat.le_trans h.size_le h'.size_le, fun k hk => (h'.same k hk).trans (h.same k hk),
    fun hs => h'.closed (h.closed hs)⟩

theorem mono (h : s.Spares m t) (hnm : n ≤ m) : s.Spares n t :=
  ⟨h.size_le, fun k hk => h.same k (Nat.lt_of_lt_of_le hk hnm), h.closed⟩

theorem add (hn : n ≤ s.cells.size) (hc : ∀ j ∈ c.children, j < s.cells.size) :
    s.Spares n (s.add c).1 := by
  refine ⟨by simp, fun k hk => cell?_add_of_lt (Nat.lt_of_lt_of_le hk hn), fun hs k d hd j hj => ?_⟩
  rw [size_add]
  rcases Nat.lt_or_eq_of_le (Nat.lt_succ_iff.1 (size_add s c ▸ lt_size_of_cell? hd)) with hlt | rfl
  · rw [cell?_add_of_lt hlt] at hd
    exact Nat.lt_succ_of_lt (hs k d hd j hj)
  · rw [cell?_add_self] at hd
    cases hd
    exact Nat.lt_succ_of_lt (hc j hj)

theorem set (hk : n ≤ k) (hc : s.Closed → ∀ j ∈ c.children, j < s.cells.size) :
    s.Spares n (s.set k c) := by
  refine ⟨by simp, fun i hi => cell?_set_of_ne (Nat.ne_of_lt (Nat.lt_of_lt_of_le hi hk)) c, ?_⟩
  intro hs i d hd j hj
  rw [size_set]
  by_cases hik : i = k
  · subst hik
    rw [cell?_set_self (by simpa using lt_size_of_cell? hd)] at hd
    cases hd
    exact hc hs j hj
  · rw [cell?_set_of_ne hik] at hd
    exact hs i d hd j hj

end Spares

theorem children_ofNode_subset (ks : List Key) (x : Node) : (Cell.ofNode ks x).children ⊆ ks := by
  cases x with
  | block => exact List.Subset.refl _
  | _ => exact List.nil_subset _

/-- A node that is changed without its children. -/
theorem Spares.setNode (hk : n ≤ k) (hc : s.cell? k = some c) (x : Node) :
    s.Spares n (s.set k (.ofNode c.children x)) :=
  .set hk fun hs j hj => hs k c hc j (children_ofNode_subset _ _ hj)

/-- A change of nodes without their children spares all others, and no node gets a child. -/
theorem spares_update {ε : Type} (f : Node → Except ε Node) (hks : ∀ k ∈ ks, n ≤ k) :
    s.Spares n (s.update f ks).1 ∧
      ∀ k, (s.update f ks).1.childrenOf k ⊆ s.childrenOf k := by
  induction ks generalizing s with
  | nil => exact ⟨.refl n s, fun _ => List.Subset.refl _⟩
  | cons k ks ih =>
    have hrest : ∀ i ∈ ks, n ≤ i := fun i hi => hks i (List.mem_cons_of_mem _ hi)
    rw [update]
    cases hc : s.cell? k with
    | none => exact ih hrest
    | some c =>
      dsimp only
      cases f (c.node []) with
      | error e => exact ⟨.refl n s, fun _ => List.Subset.refl _⟩
      | ok x =>
        obtain ⟨hspares, hsub⟩ := ih hrest (s := s.set k (.ofNode c.children x))
        refine ⟨(Spares.setNode (hks k List.mem_cons_self) hc x).trans hspares, fun i => ?_⟩
        refine List.Subset.trans (hsub i) ?_
        by_cases hik : i = k
        · subst hik
          rw [childrenOf_eq (cell?_set_self (lt_size_of_cell? hc) _), childrenOf_eq hc]
          exact children_ofNode_subset _ _
        · rw [childrenOf_congr (cell?_set_of_ne hik _)]
          exact List.Subset.refl _

/-- Anchoring spares the nodes that it cannot come to. -/
theorem spares_anchor (origin : Text) (hs : s.Upper n) (hks : ∀ k ∈ ks, n ≤ k) :
    s.Spares n (s.anchor origin ks).1 := by
  obtain ⟨hvalues, hsub⟩ := spares_update (Node.anchoredValue origin)
    (fun k hk => hs.le_of_mem_walkWithin hks hk : ∀ k ∈ s.walk ks, n ≤ k)
  unfold anchor
  rcases hval : s.update (Node.anchoredValue origin) (s.walk ks) with ⟨t, _ | f⟩
  · rw [hval] at hvalues hsub
    have ht : t.Upper n := fun k hk j hj => hs k hk j (hsub k hj)
    exact hvalues.trans (spares_update _ fun k hk => ht.le_of_mem_walkWithin hks hk).1
  · rw [hval] at hvalues
    exact hvalues

theorem spares_zero_anchor (s : Store) (origin : Text) (ks : List Key) :
    s.Spares 0 (s.anchor origin ks).1 :=
  spares_anchor origin (fun _ _ _ _ => Nat.zero_le _) fun _ _ => Nat.zero_le _

/-- What planting comes to: new nodes that lead to nothing below them. -/
structure Planted (n : Nat) (s t : Store) (ks : List Key) : Prop where
  spares : s.Spares n t
  upper : s.Upper n → t.Upper n
  new : ∀ k ∈ ks, n ≤ k ∧ k < t.cells.size

theorem planted_add (hn : n ≤ s.cells.size) {t : Store} {ks : List Key} (h : s.Planted n t ks)
    (hc : c.children ⊆ ks) : s.Planted n (t.add c).1 [(t.add c).2] := by
  have hsize := Nat.le_trans hn h.spares.size_le
  refine ⟨h.spares.trans (.add hsize fun j hj => (h.new j (hc hj)).2),
    fun hs => (h.upper hs).add fun j hj => (h.new j (hc hj)).1, fun k hk => ?_⟩
  rw [List.mem_singleton.1 hk, key_add, size_add]
  exact ⟨hsize, Nat.lt_succ_self _⟩

mutual

theorem planted_plant {s : Store} (hn : n ≤ s.cells.size) (x : Node) :
    s.Planted n (s.plant x).1 [(s.plant x).2] := by
  cases x with
  | block before h xs after =>
    rw [plant]
    exact planted_add hn (planted_plantAll hn xs) (List.Subset.refl _)
  | _ =>
    rw [plant]
    · have hnone : s.Planted n s [] := ⟨.refl n s, id, by simp⟩
      exact planted_add hn hnone (List.Subset.refl _)
    · simp

theorem planted_plantAll {s : Store} (hn : n ≤ s.cells.size) (xs : List Node) :
    s.Planted n (s.plantAll xs).1 (s.plantAll xs).2 := by
  cases xs with
  | nil =>
    rw [plantAll]
    exact ⟨.refl n s, id, by simp⟩
  | cons x xs =>
    have hx := planted_plant hn x
    have hxs := planted_plantAll (Nat.le_trans hn hx.spares.size_le) xs
    rw [plantAll]
    dsimp only
    refine ⟨hx.spares.trans hxs.spares, fun hs => hxs.upper (hx.upper hs), fun k hk => ?_⟩
    rcases List.mem_cons.1 hk with rfl | hk
    · obtain ⟨hle, hlt⟩ := hx.new _ List.mem_cons_self
      exact ⟨hle, Nat.lt_of_lt_of_le hlt hxs.spares.size_le⟩
    · exact hxs.new k hk

end

theorem spares_leadWith (before : Text) (hk : n ≤ k) : s.Spares n (s.leadWith before k) := by
  unfold leadWith
  cases hc : s.cell? k with
  | none => exact .refl n s
  | some c => exact .setNode hk hc _

/-- A block around nodes is new, and of the nodes only the first may change. -/
theorem planted_wrapIn (h : AtHead) (hn : n ≤ s.cells.size)
    (hks : ∀ k ∈ ks, n ≤ k ∧ k < s.cells.size) :
    s.Spares n (s.wrapIn h ks).1 ∧
      n ≤ (s.wrapIn h ks).2 ∧ (s.wrapIn h ks).2 < (s.wrapIn h ks).1.cells.size := by
  have hblock (t : Store) (ht : s.Spares n t) :
      let block := t.add (.block [] (.atRule h) ks ['\n'])
      s.Spares n block.1 ∧ n ≤ block.2 ∧ block.2 < block.1.cells.size := by
    have hlt : ∀ j ∈ ks, j < t.cells.size := fun j hj =>
      Nat.lt_of_lt_of_le (hks j hj).2 ht.size_le
    have hsize := Nat.le_trans hn ht.size_le
    exact ⟨ht.trans (.add hsize hlt), hsize, by simp⟩
  unfold wrapIn
  apply hblock
  cases ks with
  | nil => exact .refl n s
  | cons k ks =>
    dsimp only
    split
    · split
      · exact spares_leadWith _ (hks k List.mem_cons_self).1
      · exact .refl n s
    · exact .refl n s

theorem planted_wrapAll (hs : List AtHead) (hn : n ≤ s.cells.size)
    (hks : ∀ k ∈ ks, n ≤ k ∧ k < s.cells.size) :
    s.Spares n (s.wrapAll ks hs).1 ∧
      ∀ k ∈ (s.wrapAll ks hs).2, n ≤ k ∧ k < (s.wrapAll ks hs).1.cells.size := by
  induction hs generalizing s ks with
  | nil => exact ⟨.refl n s, hks⟩
  | cons h rest ih =>
    obtain ⟨hspares, hle, hlt⟩ := planted_wrapIn h hn hks
    have hblock : ∀ k ∈ [(s.wrapIn h ks).2], n ≤ k ∧ k < (s.wrapIn h ks).1.cells.size := by
      simpa using ⟨hle, hlt⟩
    obtain ⟨hrest, hkeys⟩ := ih (Nat.le_trans hn hspares.size_le) hblock
    exact ⟨hspares.trans hrest, hkeys⟩

theorem planted_replacement (d : Import) (k : Key) {content : List Key} (hn : n ≤ s.cells.size)
    (hks : ∀ k ∈ content, n ≤ k ∧ k < s.cells.size) :
    s.Spares n (s.replacement d k content).1 ∧
      ∀ j ∈ (s.replacement d k content).2, n ≤ j ∧ j < (s.replacement d k content).1.cells.size := by
  obtain ⟨hspares, hkeys⟩ := planted_wrapAll d.wrappers hn
    fun k hk => hks k (List.mem_filter.1 hk).1
  unfold replacement
  rcases hw : s.wrapAll (content.filter fun j => !Run.isCharset (s.shell j)) d.wrappers
    with ⟨t, _ | ⟨j, rest⟩⟩
  all_goals rw [hw] at hspares hkeys
  · exact ⟨hspares, by simp⟩
  · have hlead : t.Spares n (t.leadWith (t.shell k).before j) :=
      spares_leadWith _ (hkeys j List.mem_cons_self).1
    exact ⟨hspares.trans hlead, fun i hi =>
      ⟨(hkeys i hi).1, Nat.lt_of_lt_of_le (hkeys i hi).2 hlead.size_le⟩⟩

end Store

end StyleSplice
