import StyleSplice.Proofs.Resolve.Refinement

/-!
# What a run can reach

The references that a run comes upon: the targets of the imports among its nodes, the references of
the pages that these lead to if they are anchored, and so on inside each page that is walked over. The
one pass stops at every reference among them that is refused.
-/

namespace StyleSplice

/-- An import among the nodes leads to a page. -/
def Leads (s : Setup) (c : Context) (ns : List Node) (url : Text) : Prop :=
  ∃ d n, (d, n) ∈ Import.findAll ns c.origin ∧
    Target.classify d.target c.origin s.options.schemeText = .ok (.remote url) ∧
    c.visited url = false

/-- A reference within the reach of a run over some nodes is refused. -/
inductive Stumbles (s : Setup) : Context → List Node → UrlFault → Prop
  /-- The target of an import. -/
  | target {c : Context} {ns : List Node} {d : Import} {n : Node} {f : UrlFault}
    (found : (d, n) ∈ Import.findAll ns c.origin)
    (refused : Target.classify d.target c.origin s.options.schemeText = .error f) :
    Stumbles s c ns f
  /-- A reference of a page that is anchored. -/
  | anchor {c : Context} {ns : List Node} {url : Text} {f : UrlFault} (leads : Leads s c ns url)
    (refused : s.content url = .error (.badUrl f)) : Stumbles s c ns f
  /-- Something in a page that is walked over. -/
  | inside {c : Context} {ns children : List Node} {url : Text} {f : UrlFault}
    (leads : Leads s c ns url) (content : s.content url = .ok (.ok children))
    (enters : c.canDescend = true) (inner : Stumbles s (c.descend url) children f) :
    Stumbles s c ns f
  /-- The target of an import in a page that is not walked over. -/
  | left {c : Context} {ns children : List Node} {url : Text} {d : Import} {n : Node}
    {f : UrlFault} (leads : Leads s c ns url) (content : s.content url = .ok (.ok children))
    (stays : c.canDescend = false)
    (found : (d, n) ∈ Import.findAll children (c.descend url).origin)
    (refused :
      Target.classify d.target (c.descend url).origin s.options.schemeText = .error f) :
    Stumbles s c ns f

/-- Only a node without children is an import. -/
theorem Import.items_of_ofNode? {n : Node} {origin : Option Text} {d : Import}
    (h : Import.ofNode? n origin = some d) : n.items = [.leaf n] := by
  obtain ⟨before, hd, semicolon, rfl, -⟩ := Import.ofNode?_eq_some_iff.1 h
  rfl

theorem Plan.ofNode_error_iff {s : Setup} {c : Context} {n : Node} {f : UrlFault} :
    Plan.ofNode s c n = .error f ↔ ∃ d, Import.ofNode? n c.origin = some d ∧
      Target.classify d.target c.origin s.options.schemeText = .error f := by
  unfold Plan.ofNode
  split
  · simp [*]
  · split
    · simp_all
    · simp_all
    · split <;> simp_all

theorem Plan.ofNode_fetch_iff {s : Setup} {c : Context} {n : Node} {d : Import} {url : Text} :
    Plan.ofNode s c n = .ok (.fetch d url) ↔ Import.ofNode? n c.origin = some d ∧
      Target.classify d.target c.origin s.options.schemeText = .ok (.remote url) ∧
      c.visited url = false := by
  unfold Plan.ofNode
  cases Import.ofNode? n c.origin with
  | none => simp
  | some d' =>
    cases ht : Target.classify d'.target c.origin s.options.schemeText with
    | error f => simp; grind
    | ok target =>
      cases target with
      | localPath path => simp; grind
      | remote url' => by_cases hv : c.visited url' <;> simp <;> grind

namespace Stumbles

variable {s : Setup} {c : Context} {ns ms : List Node} {f : UrlFault}

/-- What is refused among some nodes is refused among more nodes. -/
theorem mono (h : Stumbles s c ns f) (hsub : ∀ n ∈ Node.walkAll ns, n ∈ Node.walkAll ms) :
    Stumbles s c ms f := by
  have hfind : ∀ d n, (d, n) ∈ Import.findAll ns c.origin →
      (d, n) ∈ Import.findAll ms c.origin := fun d n hm => by
    rw [Import.mem_findAll] at hm ⊢
    exact ⟨hsub n hm.1, hm.2⟩
  have hleads : ∀ url, Leads s c ns url → Leads s c ms url := by
    rintro url ⟨d, n, hm, h⟩
    exact ⟨d, n, hfind d n hm, h⟩
  cases h with
  | target found refused => exact .target (hfind _ _ found) refused
  | anchor leads refused => exact .anchor (hleads _ leads) refused
  | inside leads content enters inner => exact .inside (hleads _ leads) content enters inner
  | left leads content stays found refused =>
    exact .left (hleads _ leads) content stays found refused

end Stumbles

/-- Everything that the yield finds and asks for, the other one does too. -/
structure Yield.Within (z y : Yield) : Prop where
  findings : z.findings ⊆ y.findings
  asked : z.asked ⊆ y.asked

namespace Yield.Within

variable {w y z : Yield}

theorem refl (y : Yield) : y.Within y := ⟨List.Subset.refl _, List.Subset.refl _⟩

theorem trans (h : w.Within z) (h' : z.Within y) : w.Within y :=
  ⟨List.Subset.trans h.findings h'.findings, List.Subset.trans h.asked h'.asked⟩

theorem left (y z : Yield) : y.Within (y.append z) :=
  ⟨List.subset_append_left _ _, List.subset_append_left _ _⟩

theorem right (y z : Yield) : z.Within (y.append z) :=
  ⟨List.subset_append_right _ _, List.subset_append_right _ _⟩

end Yield.Within

namespace OnePass

variable {s : Setup} {enter : Context → List Node → Except Halt Yield} {c : Context}

theorem nodes_eq_ok_cons {n : Node} {ns : List Node} {y : Yield}
    (h : nodes s enter c (n :: ns) = .ok y) :
    ∃ y₁ y₂, node s enter c n = .ok y₁ ∧ nodes s enter c ns = .ok y₂ ∧ y = y₁.append y₂ := by
  rw [nodes] at h
  split at h
  · cases h
  · rename_i y₁ h₁
    obtain ⟨y₂, h₂, rfl⟩ := map_eq_ok_iff.1 h
    exact ⟨y₁, y₂, h₁, h₂, rfl⟩

theorem nodes_append {ms ns : List Node} {y z : Yield} (hm : nodes s enter c ms = .ok y)
    (hn : nodes s enter c ns = .ok z) : nodes s enter c (ms ++ ns) = .ok (y.append z) := by
  induction ms generalizing y with
  | nil =>
    rw [nodes] at hm
    cases hm
    simpa [Yield.append] using hn
  | cons m ms ih =>
    obtain ⟨y₁, y₂, h₁, h₂, rfl⟩ := nodes_eq_ok_cons hm
    rw [List.cons_append, nodes_cons_ok h₁ (ih h₂)]
    simp [Yield.append]

/-- If the pass goes over some nodes, it goes over each of them. -/
theorem exists_node_of_mem {n : Node} {ns : List Node} {y : Yield}
    (h : nodes s enter c ns = .ok y) (hn : n ∈ ns) :
    ∃ z, node s enter c n = .ok z ∧ z.Within y := by
  induction ns generalizing y with
  | nil => cases hn
  | cons m ns ih =>
    obtain ⟨y₁, y₂, h₁, h₂, rfl⟩ := nodes_eq_ok_cons h
    rcases List.mem_cons.1 hn with rfl | hn
    · exact ⟨y₁, h₁, .left y₁ y₂⟩
    · obtain ⟨z, hz, hsub⟩ := ih h₂ hn
      exact ⟨z, hz, hsub.trans (.right y₁ y₂)⟩

theorem exists_node_of_mem_walk {m n : Node} {y : Yield} (h : node s enter c n = .ok y)
    (hm : m ∈ n.walk) : ∃ z, node s enter c m = .ok z ∧ z.Within y := by
  induction n using Node.induction generalizing y with
  | leaf n hn =>
    rw [Node.walk_of_leaf hn, List.mem_singleton] at hm
    exact ⟨y, hm ▸ h, .refl y⟩
  | block before hd children after ih =>
    rw [Node.walk, List.mem_cons] at hm
    rcases hm with rfl | hm
    · exact ⟨y, h, .refl y⟩
    · rw [node_block] at h
      obtain ⟨z, hz, rfl⟩ := map_eq_ok_iff.1 h
      obtain ⟨k, hk, hmk⟩ := Node.mem_walkAll.1 hm
      obtain ⟨w, hw, hsub⟩ := exists_node_of_mem hz hk
      obtain ⟨v, hv, hsub'⟩ := ih k hk hw hmk
      exact ⟨v, hv, hsub'.trans ⟨hsub.findings, hsub.asked⟩⟩

theorem exists_node_of_mem_walkAll {n : Node} {ns : List Node} {y : Yield}
    (h : nodes s enter c ns = .ok y) (hn : n ∈ Node.walkAll ns) :
    ∃ z, node s enter c n = .ok z ∧ z.Within y := by
  obtain ⟨m, hm, hnm⟩ := Node.mem_walkAll.1 hn
  obtain ⟨w, hw, hsub⟩ := exists_node_of_mem h hm
  obtain ⟨z, hz, hsub'⟩ := exists_node_of_mem_walk hw hnm
  exact ⟨z, hz, hsub'.trans hsub⟩

/-- If the pass goes over some nodes, it puts each page that they lead to in its place. -/
theorem exists_replace_of_leads {ns : List Node} {url : Text} {y : Yield}
    (h : nodes s enter c ns = .ok y) (hl : Leads s c ns url) :
    ∃ n d z, replace s enter c n d url = .ok z ∧ z.Within y := by
  obtain ⟨d, n, hfound, hremote, hfresh⟩ := hl
  obtain ⟨hn, hd⟩ := Import.mem_findAll.1 hfound
  obtain ⟨z, hz, hsub⟩ := exists_node_of_mem_walkAll h hn
  rw [node_of_leaf (Import.items_of_ofNode? hd),
    Plan.ofNode_fetch_iff.2 ⟨hd, hremote, hfresh⟩] at hz
  exact ⟨n, d, z, hz, hsub⟩

theorem remarks_ne_ok {found : List (Import × Node)} {d : Import} {n : Node} {f : UrlFault}
    (hmem : (d, n) ∈ found)
    (h : Target.classify d.target c.origin s.options.schemeText = .error f) (y : Yield) :
    remarks s c found ≠ .ok y := by
  induction found generalizing y with
  | nil => cases hmem
  | cons x rest ih =>
    intro hy
    obtain ⟨d', n'⟩ := x
    unfold remarks at hy
    split at hy
    · cases hy
    · rename_i target ht
      obtain ⟨z, hz, -⟩ := map_eq_ok_iff.1 hy
      rcases List.mem_cons.1 hmem with hx | hmem
      · cases hx
        rw [h] at ht
        cases ht
      · exact ih hmem z hz

/-- The pass stops at whatever is refused within its reach. -/
theorem inline_ne_ok {ns : List Node} {f : UrlFault} (h : Stumbles s c ns f) (fuel : Nat)
    (y : Yield) : inline s fuel c ns ≠ .ok y := by
  induction h generalizing fuel y with
  | target found refused =>
    intro hy
    cases fuel with
    | zero => cases hy
    | succ fuel =>
      obtain ⟨hn, hd⟩ := Import.mem_findAll.1 found
      obtain ⟨z, hz, -⟩ := exists_node_of_mem_walkAll hy hn
      rw [node_of_leaf (Import.items_of_ofNode? hd),
        Plan.ofNode_error_iff.2 ⟨_, hd, refused⟩] at hz
      cases hz
  | anchor leads refused =>
    intro hy
    cases fuel with
    | zero => cases hy
    | succ fuel =>
      obtain ⟨n, d, z, hz, -⟩ := exists_replace_of_leads hy leads
      rw [replace, refused] at hz
      cases hz
  | inside leads content enters inner ih =>
    intro hy
    cases fuel with
    | zero => cases hy
    | succ fuel =>
      obtain ⟨n, d, z, hz, -⟩ := exists_replace_of_leads hy leads
      rw [replace, content] at hz
      obtain ⟨w, hw, -⟩ := map_eq_ok_iff.1 hz
      rw [visit, if_pos enters] at hw
      exact ih fuel w hw
  | left leads content stays found refused =>
    intro hy
    cases fuel with
    | zero => cases hy
    | succ fuel =>
      obtain ⟨n, d, z, hz, -⟩ := exists_replace_of_leads hy leads
      rw [replace, content] at hz
      obtain ⟨w, hw, -⟩ := map_eq_ok_iff.1 hz
      rw [visit, if_neg (by simp [stays])] at hw
      split at hw
      · cases hw
      · rename_i v hv
        exact remarks_ne_ok found refused v hv

end OnePass

end StyleSplice
