import StyleSplice.Asset.Anchor
import StyleSplice.Proofs.Sheet.Items

/-!
# Trees of the same shape

A change of the nodes without children leaves the blocks of a tree as they are. What such a change
does to a tree is said by what it does to each of these nodes.
-/

namespace StyleSplice

namespace Node

/-- Two lists of nodes of the same shape, in which the nodes without children are related. -/
inductive Matched (R : Node → Node → Prop) : List Node → List Node → Prop
  | nil : Matched R [] []
  | leaf {n m : Node} {ns ms : List Node} (hn : n.items = [.leaf n]) (hm : m.items = [.leaf m])
    (related : R n m) (rest : Matched R ns ms) : Matched R (n :: ns) (m :: ms)
  | block {before after : Text} {h : Head} {children children' ns ms : List Node}
    (inner : Matched R children children') (rest : Matched R ns ms) :
    Matched R (.block before h children after :: ns) (.block before h children' after :: ms)

variable {R S : Node → Node → Prop} {ns ms ks : List Node}

theorem Matched.mono (h : Matched R ns ms)
    (hRS : ∀ n ∈ Node.walkAll ns, ∀ m, n.items = [.leaf n] → R n m → S n m) : Matched S ns ms := by
  induction h with
  | nil => exact .nil
  | @leaf n m ns ms hn hm related _ ih =>
    exact .leaf hn hm (hRS n (by simp [mem_walk_self]) m hn related)
      (ih fun k hk => hRS k (by simp [hk]))
  | @block before after hd children children' ns ms _ _ ih ihs =>
    exact .block (ih fun k hk => hRS k (by simp [walk, hk])) (ihs fun k hk => hRS k (by simp [hk]))

theorem Matched.trans (h : Matched R ns ms) (h' : Matched S ms ks) :
    Matched (fun n k => ∃ m, R n m ∧ S m k) ns ks := by
  induction h generalizing ks with
  | nil =>
    cases h'
    exact .nil
  | leaf hn hm related _ ih =>
    cases h' with
    | leaf _ hk related' rest' => exact .leaf hn hk ⟨_, related, related'⟩ (ih rest')
    | block => simp at hm
  | block _ _ ih ihs =>
    cases h' with
    | leaf hn => simp at hn
    | block inner' rest' => exact .block (ih inner') (ihs rest')

theorem matched_refl (hR : ∀ n, n.items = [.leaf n] → R n n) (ns : List Node) :
    Matched R ns ns := by
  have hlist : ∀ ns : List Node, (∀ n ∈ ns, ∀ ms, Matched R ms ms → Matched R (n :: ms) (n :: ms)) →
      Matched R ns ns := by
    intro ns
    induction ns with
    | nil => exact fun _ => .nil
    | cons n ns ih => exact fun hns => hns n (by simp) ns (ih fun m hm => hns m (by simp [hm]))
  have hnode : ∀ n ms, Matched R ms ms → Matched R (n :: ms) (n :: ms) := by
    intro n
    induction n using Node.induction with
    | leaf n hn => exact fun ms hms => .leaf hn hn (hR n hn) hms
    | block before h children after ih => exact fun ms hms => .block (hlist children ih) hms
  exact hlist ns fun n _ => hnode n

/-- A change of the nodes without children matches a tree with its result. -/
theorem matched_of_mapAllLeavesM {ε : Type} {f : Node → Except ε Node}
    (hf : ∀ n m, n.items = [.leaf n] → f n = .ok m → m.items = [.leaf m])
    (h : mapAllLeavesM f ns = .ok ms) : Matched (fun n m => f n = .ok m) ns ms := by
  have hlist : ∀ ns : List Node,
      (∀ n ∈ ns, ∀ m ks ls, n.mapLeavesM f = .ok m → Matched (fun n m => f n = .ok m) ks ls →
        Matched (fun n m => f n = .ok m) (n :: ks) (m :: ls)) →
      ∀ ms, mapAllLeavesM f ns = .ok ms → Matched (fun n m => f n = .ok m) ns ms := by
    intro ns
    induction ns with
    | nil =>
      intro _ ms h
      rw [mapAllLeavesM] at h
      cases h
      exact .nil
    | cons n ns ih =>
      intro hns ms h
      rw [mapAllLeavesM] at h
      split at h
      · cases h
      · rename_i m hm
        split at h
        · rename_i ls hls
          cases h
          exact hns n (by simp) m ns ls hm (ih (fun k hk => hns k (by simp [hk])) ls hls)
        · cases h
  have hnode : ∀ n m ks ls, n.mapLeavesM f = .ok m → Matched (fun n m => f n = .ok m) ks ls →
      Matched (fun n m => f n = .ok m) (n :: ks) (m :: ls) := by
    intro n
    induction n using Node.induction with
    | leaf n hn =>
      intro m ks ls hm hks
      have hfm : f n = .ok m := by
        cases n with
        | block => simp at hn
        | _ => simpa [mapLeavesM] using hm
      exact .leaf hn (hf n m hn hfm) hfm hks
    | block before hd children after ih =>
      intro m ks ls hm hks
      rw [mapLeavesM] at hm
      split at hm
      · rename_i children' hc
        cases hm
        exact .block (hlist children ih children' hc) hks
      · cases hm
  exact hlist ns (fun n _ => hnode n) ms h

variable {origin : Text} {n m : Node}

theorem items_of_anchoredValue (hn : n.items = [.leaf n]) (h : n.anchoredValue origin = .ok m) :
    m.items = [.leaf m] := by
  rcases eq_of_anchoredValue h with rfl | ⟨d, value, rfl, rfl⟩
  · exact hn
  · rfl

theorem items_of_anchoredImport (hn : n.items = [.leaf n]) (h : n.anchoredImport origin = .ok m) :
    m.items = [.leaf m] := by
  rcases eq_of_anchoredImport h with rfl | ⟨_, _, _, _, _, rfl, -, -, -, -, -, rfl⟩
  · exact hn
  · rfl

/-- An anchored tree matches the tree that it was made from. -/
theorem matched_of_anchorAll (h : anchorAll origin ns = .ok ms) :
    Matched (fun n k => ∃ m, n.anchoredValue origin = .ok m ∧ m.anchoredImport origin = .ok k)
      ns ms := by
  unfold anchorAll at h
  split at h
  · rename_i ks hks
    exact (matched_of_mapAllLeavesM (fun n m => items_of_anchoredValue) hks).trans
      (matched_of_mapAllLeavesM (fun n m => items_of_anchoredImport) h)
  · cases h

end Node

end StyleSplice
