import StyleSplice.Proofs.Import.Retarget
import StyleSplice.Proofs.Resolve.Containment
import StyleSplice.Proofs.Sheet.Matched
import StyleSplice.Proofs.Sheet.Reread

/-!
# The seams of a result

The tree that a run leaves is put together from trees that were read. Every node of it keeps the
shape of a node that was read, so whether its text is read as the same tree is decided where the
pieces meet: at at-rules and declarations without a semicolon, at the heads that hold conditions, and
at the addresses that were put into a value or a target.
-/

namespace StyleSplice

namespace Node

variable {n : Node} {ms ns : List Node}

/-- The shape of a node is that of its items. -/
def Shaped (n : Node) : Prop := ∀ it ∈ n.items, it.Shaped

theorem allShaped_iff : AllShaped ns ↔ ∀ n ∈ ns, n.Shaped := by
  constructor
  · exact fun h n hn it hit => h it (mem_itemsOf.2 ⟨n, hn, hit⟩)
  · intro h it hit
    obtain ⟨n, hn, hmem⟩ := mem_itemsOf.1 hit
    exact h n hn it hmem

@[simp] theorem allShaped_nil : AllShaped [] := by simp [allShaped_iff]

@[simp] theorem allShaped_cons : AllShaped (n :: ns) ↔ n.Shaped ∧ AllShaped ns := by
  simp [allShaped_iff]

@[simp] theorem allShaped_append : AllShaped (ms ++ ns) ↔ AllShaped ms ∧ AllShaped ns := by
  simp [allShaped_iff, or_imp, forall_and]

theorem shaped_of_leaf (h : n.items = [.leaf n]) : n.Shaped ↔ (Item.leaf n).Shaped := by
  simp [Shaped, h]

@[simp] theorem shaped_block {before after : Text} {h : Head} {children : List Node} :
    (Node.block before h children after).Shaped ↔
      (Item.opening before h).Shaped ∧ AllShaped children ∧ Text.All isTrivia after := by
  simp only [Shaped, items_block, List.mem_cons, List.mem_append, List.not_mem_nil, or_false]
  constructor
  · exact fun h => ⟨h _ (.inl rfl), fun it hit => h it (.inr (.inl hit)), h _ (.inr (.inr rfl))⟩
  · rintro ⟨h₁, h₂, h₃⟩ it (rfl | hit | rfl)
    · exact h₁
    · exact h₂ it hit
    · exact h₃

theorem all_before (h : n.Shaped) : Text.All isTrivia n.before := by
  cases n with
  | block before hd children after =>
    exact Item.all_before (shaped_block.1 h).1
  | _ => exact Item.all_before ((shaped_of_leaf (by simp [items])).1 h)

theorem shaped_withBefore {before : Text} (hb : Text.All isTrivia before) (h : n.Shaped) :
    (n.withBefore before).Shaped := by
  cases n with
  | comment lead body =>
    rw [shaped_of_leaf (by simp [items])] at h
    rw [withBefore, shaped_of_leaf (by simp [items])]
    exact ⟨hb, h.2⟩
  | declaration d =>
    rw [shaped_of_leaf (by simp [items])] at h
    rw [withBefore, shaped_of_leaf (by simp [items])]
    have hd : d.Shaped := h
    exact
      { before := hb, property := hd.property, between := hd.between, starts := hd.starts
        front := hd.front, trailing := hd.trailing }
  | statement lead hd semicolon =>
    rw [shaped_of_leaf (by simp [items])] at h
    rw [withBefore, shaped_of_leaf (by simp [items])]
    exact ⟨hb, h.2⟩
  | block lead hd children after =>
    rw [withBefore, shaped_block]
    obtain ⟨ho, hrest⟩ := shaped_block.1 h
    refine ⟨?_, hrest⟩
    cases hd <;> exact ⟨hb, ho.2⟩

theorem allShaped_leadWith {before : Text} (hb : Text.All isTrivia before) (h : AllShaped ns) :
    AllShaped (leadWith before ns) := by
  cases ns with
  | nil => exact h
  | cons n ns =>
    rw [allShaped_cons] at h
    rw [leadWith, allShaped_cons]
    exact ⟨shaped_withBefore hb h.1, h.2⟩

theorem shaped_wrapIn {h : AtHead} (hh : h.Shaped) (hns : AllShaped ns) :
    (wrapIn h ns).Shaped := by
  have hgap : Text.All isTrivia ['\n'] := by simp [isTrivia, isGap]
  unfold wrapIn
  refine shaped_block.2 ⟨⟨by simp, hh⟩, ?_, hgap⟩
  split
  · split
    · exact allShaped_leadWith hgap hns
    · exact hns
  · exact allShaped_nil

end Node

/-- The head of a block for a condition has the shape of one that was read. -/
theorem AtHead.shaped_ofCondition {name : String} (condition : Text)
    (hname : atName? name.toList = some (name.toList, [])) :
    (AtHead.ofCondition name condition).Shaped where
  name := hname
  boundary := by
    cases condition with
    | nil => simpa [ofCondition] using (by decide : isNameMore ' ' = false)
    | cons c condition => simpa [ofCondition] using (by decide : isNameMore ' ' = false)
  afterName := by
    cases condition <;> simp [ofCondition, isGap]
  between := by simp [ofCondition, isGap]

theorem Import.shaped_of_mem_wrappers {d : Import} : ∀ h ∈ d.wrappers, h.Shaped := by
  intro h hh
  obtain ⟨name, hname, condition, rfl⟩ := exists_of_mem_wrappers hh
  have hread : ∀ name ∈ ["layer", "supports", "media"],
      atName? name.toList = some (name.toList, []) := by decide
  exact AtHead.shaped_ofCondition condition (hread name hname)

theorem Import.allShaped_wrap (d : Import) {ns : List Node} (h : Node.AllShaped ns) :
    Node.AllShaped (d.wrap ns) := by
  refine d.wrap_keeps (fun h hh ns hns => ?_) h
  rw [Node.allShaped_cons]
  exact ⟨Node.shaped_wrapIn (shaped_of_mem_wrappers h hh) hns, Node.allShaped_nil⟩

theorem Run.allShaped_replacement (d : Import) {n : Node} {content : List Node} (hn : n.Shaped)
    (hc : Node.AllShaped content) : Node.AllShaped (Run.replacement d n content) := by
  refine Node.allShaped_leadWith (Node.all_before hn) (d.allShaped_wrap ?_)
  rw [Node.allShaped_iff] at hc ⊢
  exact fun m hm => hc m (List.mem_of_mem_filter hm)

/-- A target never stands at the very front of the parameters. -/
theorem Import.start_of_decode? {params : Text} {origin : Option Text} {d : Import}
    (h : Import.decode? params origin = some d) : 1 ≤ d.start ∧ params ≠ [] := by
  constructor
  · unfold Import.decode? at h
    split at h
    · cases h
    · rename_i t ht
      cases h
      obtain ⟨front, back, -, hform⟩ := Import.exists_form_of_rawTarget? ht
      exact hform.start_pos
  · rintro rfl
    cases h

/-- Another target leaves the first character of the parameters as it is. -/
theorem AtHead.Shaped.retargeted {h : AtHead} (hs : h.Shaped) {d : Import} {origin : Option Text}
    (hd : Import.decode? h.params origin = some d) (url : Text) :
    ({ h with params := d.retargeted h.params url } : AtHead).Shaped where
  name := hs.name
  boundary := by
    obtain ⟨hstart, hne⟩ := Import.start_of_decode? hd
    obtain ⟨c, params, hparams⟩ := List.exists_cons_of_ne_nil hne
    obtain ⟨k, hk⟩ : ∃ k, d.start = k + 1 := ⟨d.start - 1, by omega⟩
    have hb := hs.boundary
    rw [hparams] at hb
    have hfront : d.retargeted h.params url =
        c :: (params.take k ++ url ++ h.params.drop d.stop) := by
      rw [Import.retargeted, hk, hparams]
      simp
    rw [hfront]
    cases hl : h.afterName with
    | nil => simpa [hl] using hb
    | cons a lead => simpa [hl] using hb
  afterName := hs.afterName
  between := hs.between

namespace Node

variable {n m : Node} {ns ms : List Node} {origin : Text}

theorem shaped_anchoredValue (hn : n.items = [.leaf n]) (hs : n.Shaped)
    (h : n.anchoredValue origin = .ok m) : m.Shaped := by
  rcases eq_of_anchoredValue h with rfl | ⟨d, value, rfl, rfl⟩
  · exact hs
  · rw [shaped_of_leaf hn] at hs
    have hd : d.Shaped := hs
    rw [shaped_of_leaf (by simp [items])]
    exact ⟨hd.before, hd.property, hd.between, hd.starts, hd.front, hd.trailing⟩

theorem shaped_anchoredImport (hn : n.items = [.leaf n]) (hs : n.Shaped)
    (h : n.anchoredImport origin = .ok m) : m.Shaped := by
  rcases eq_of_anchoredImport h with
    rfl | ⟨before, hd, semicolon, d, url, rfl, -, hdecode, -, -, -, rfl⟩
  · exact hs
  · rw [shaped_of_leaf hn] at hs
    rw [shaped_of_leaf (by simp [items])]
    exact ⟨hs.1, hs.2.1.retargeted hdecode url, hs.2.2⟩

/-- A change of the nodes without children that keeps their shape keeps the shape of all nodes. -/
theorem Matched.allShaped {R : Node → Node → Prop} (h : Matched R ns ms)
    (hR : ∀ n m, n.items = [.leaf n] → R n m → n.Shaped → m.Shaped) (hs : AllShaped ns) :
    AllShaped ms := by
  induction h with
  | nil => exact allShaped_nil
  | leaf hn _ related _ ih =>
    rw [allShaped_cons] at hs ⊢
    exact ⟨hR _ _ hn related hs.1, ih hs.2⟩
  | block _ _ ih ihs =>
    rw [allShaped_cons] at hs ⊢
    obtain ⟨ho, hc, ha⟩ := shaped_block.1 hs.1
    exact ⟨shaped_block.2 ⟨ho, ih hc, ha⟩, ihs hs.2⟩

theorem allShaped_anchorAll (hs : AllShaped ns) (h : anchorAll origin ns = .ok ms) :
    AllShaped ms := by
  refine (matched_of_anchorAll h).allShaped (fun n k hn ⟨m, hm, hk⟩ hshaped => ?_) hs
  exact shaped_anchoredImport (items_of_anchoredValue hn hm) (shaped_anchoredValue hn hshaped hm) hk

end Node

/-- The nodes of a page have the shape of those that were read. -/
theorem Setup.allShaped_content {s : Setup} {url : Text} {ns : List Node}
    (h : s.content url = .ok (.ok ns)) : Node.AllShaped ns := by
  unfold content at h
  split at h
  · cases h
  · cases h
  · cases h
  · split at h
    · cases h
    · rename_i sheet hparse
      have hs : Node.AllShaped sheet.children := (Sheet.shaped_of_parse hparse).1
      split at h
      · split at h
        · cases h
        · rename_i ns' hanchor
          cases h
          exact Node.allShaped_anchorAll hs hanchor
      · cases h
        exact hs

namespace OnePass

variable {s : Setup} {enter : Context → List Node → Except Halt Yield} {c : Context} {y : Yield}
  {n : Node} {ns : List Node}

/-- Whether a walk leaves nodes of the shape that it finds. -/
def KeepsShape (enter : Context → List Node → Except Halt Yield) : Prop :=
  ∀ c ns y, Node.AllShaped ns → enter c ns = .ok y → Node.AllShaped y.nodes

theorem allShaped_visit (he : KeepsShape enter) {url : Text} (hs : Node.AllShaped ns)
    (h : visit s enter c url ns = .ok y) : Node.AllShaped y.nodes := by
  unfold visit at h
  simp only at h
  split at h
  · exact he _ ns y hs h
  · split at h
    · cases h
    · cases h
      exact hs

theorem allShaped_replace (he : KeepsShape enter) {d : Import} {url : Text} (hn : n.Shaped)
    (h : replace s enter c n d url = .ok y) : Node.AllShaped y.nodes := by
  unfold replace at h
  split at h
  · cases h
  · cases h
    simpa [Yield.skipped] using hn
  · rename_i children hcontent
    obtain ⟨z, hz, rfl⟩ := map_eq_ok_iff.1 h
    exact Run.allShaped_replacement d hn
      (allShaped_visit he (Setup.allShaped_content hcontent) hz)

theorem allShaped_nodes_of (hnode : ∀ n ∈ ns, ∀ y, n.Shaped → node s enter c n = .ok y →
      Node.AllShaped y.nodes) (hs : Node.AllShaped ns) (h : nodes s enter c ns = .ok y) :
    Node.AllShaped y.nodes := by
  induction ns generalizing y with
  | nil =>
    rw [nodes] at h
    cases h
    exact Node.allShaped_nil
  | cons n ns ih =>
    rw [Node.allShaped_cons] at hs
    obtain ⟨y₁, y₂, h₁, h₂, rfl⟩ := nodes_eq_ok_cons h
    rw [Yield.append, Node.allShaped_append]
    exact ⟨hnode n (by simp) y₁ hs.1 h₁, ih (fun m hm => hnode m (by simp [hm])) hs.2 h₂⟩

theorem allShaped_node (he : KeepsShape enter) (hn : n.Shaped) (h : node s enter c n = .ok y) :
    Node.AllShaped y.nodes := by
  induction n using Node.induction generalizing y with
  | leaf n hleaf =>
    rw [node_of_leaf hleaf] at h
    split at h
    · cases h
    · exact allShaped_replace he hn h
    · cases h
      simpa using hn
  | block before hd children after ih =>
    rw [node_block] at h
    obtain ⟨z, hz, rfl⟩ := map_eq_ok_iff.1 h
    obtain ⟨ho, hc, ha⟩ := Node.shaped_block.1 hn
    have hz' : Node.AllShaped z.nodes := allShaped_nodes_of (fun m hm y => ih m hm) hc hz
    simpa using Node.shaped_block.2 ⟨ho, hz', ha⟩

/-- The pass leaves nodes of the shape that it finds, however deep it goes. -/
theorem keepsShape_inline (s : Setup) (fuel : Nat) : KeepsShape (inline s fuel) := by
  induction fuel with
  | zero =>
    intro c ns y _ h
    cases h
  | succ fuel ih =>
    intro c ns y hs h
    exact allShaped_nodes_of (fun n _ y => allShaped_node ih) hs h

end OnePass

/-- The result of a run over a tree that was read has the shape of such trees. -/
theorem Sheet.shaped_edited {s : Setup} {source : Text} {origin : Option Text} {sheet : Sheet}
    {edits : List Edit} (hp : Sheet.parse source origin = .ok sheet)
    (h : (sheet.resolve s).edits = .ok edits) :
    Node.AllShaped (sheet.edited edits).children ∧
      Text.All isTrivia (sheet.edited edits).after := by
  obtain ⟨hs, hafter⟩ := Sheet.shaped_of_parse hp
  obtain ⟨y, hy, hnodes⟩ := Sheet.inline_of_resolve h
  refine ⟨?_, hafter⟩
  rw [Sheet.edited, hnodes]
  exact OnePass.keepsShape_inline s _ _ _ y hs hy

/-- The exact condition: the text of a result is read as the tree of the result, up to white space
and semicolons, if and only if every item of that tree stays what it is in front of those after it. -/
theorem reparse_iff_allStay {s : Setup} {source : Text} {origin : Option Text} {sheet : Sheet}
    {edits : List Edit} (hp : Sheet.parse source origin = .ok sheet)
    (h : (sheet.resolve s).edits = .ok edits) :
    (∃ t, Sheet.parse (sheet.edited edits).text sheet.origin = .ok t ∧
      t.bare = (sheet.edited edits).bare) ↔ Item.AllStay (sheet.edited edits).items := by
  obtain ⟨hs, hafter⟩ := Sheet.shaped_edited hp h
  exact Sheet.exists_parse_text_iff hs hafter

/-- The page of the first import ends in an import without a semicolon, and that import stays in
place. In the text of the result the block of the rule after it becomes its own. -/
theorem reparse_differs_after_open_import :
    let s : Setup :=
      { options := {}
        network := .ofPages [] [("https://h/a.css".toList, .body "@import 'https://h/b.css'".toList)] }
    let sheet : Sheet :=
      ⟨[.statement [] ⟨"import".toList, "'https://h/a.css'".toList, [' '], []⟩ true,
        .block [] (.rule ['a'] []) [] []], [], none⟩
    Sheet.parse "@import 'https://h/a.css';a{}".toList = .ok sheet ∧
      ∃ edits, (sheet.resolve s).edits = .ok edits ∧
        ¬ ∃ t, Sheet.parse (sheet.edited edits).text = .ok t ∧
          t.bare = (sheet.edited edits).bare := by
  intro s sheet
  have h : (sheet.resolve s).edits.map (fun edits =>
      ((Sheet.parse (sheet.edited edits).text).map (fun t => t.bare.text),
        (sheet.edited edits).bare.text)) =
      .ok (.ok "@import'https://h/b.css'a{}".toList, "@import'https://h/b.css';a{}".toList) := by
    decide +kernel
  obtain ⟨edits, he, htexts⟩ := map_eq_ok_iff.1 h
  rw [Prod.mk.injEq] at htexts
  have hp : Sheet.parse "@import 'https://h/a.css';a{}".toList = .ok sheet :=
    parse_eq_ok_iff.2 ⟨rfl, .cons rfl (.cons rfl (.cons rfl (.cons rfl (.nil _))))⟩
  refine ⟨hp, edits, he, ?_⟩
  rintro ⟨t, hparse, hbare⟩
  have htext := htexts.1
  rw [hparse] at htext
  have hsame : t.bare.text = "@import'https://h/b.css'a{}".toList := Except.ok.inj htext
  rw [hbare, htexts.2] at hsame
  revert hsame
  decide

/-- With a semicolon at the end of the page the text of the result is read as its tree, in the block
of the import's condition. -/
theorem reparse_iff_allStay_print :
    let s : Setup :=
      { options := {}
        network := .ofPages [] [("https://h/a.css".toList, .body "@import 'b.css';a{}".toList)] }
    let sheet : Sheet :=
      ⟨[.statement [] ⟨"import".toList, "'https://h/a.css' print".toList, [' '], []⟩ true], [], none⟩
    Sheet.parse "@import 'https://h/a.css' print;".toList = .ok sheet ∧
      ∃ edits, (sheet.resolve s).edits = .ok edits ∧
        ∃ t, Sheet.parse (sheet.edited edits).text = .ok t ∧
          t.bare = (sheet.edited edits).bare := by
  intro s sheet
  have hp : Sheet.parse "@import 'https://h/a.css' print;".toList = .ok sheet :=
    parse_eq_ok_iff.2 ⟨rfl, .cons rfl (.cons rfl (.nil _))⟩
  have h : (sheet.resolve s).edits.map (fun edits =>
      decide (Item.AllStay (sheet.edited edits).items)) = .ok true := by decide +kernel
  obtain ⟨edits, he, hstay⟩ := map_eq_ok_iff.1 h
  exact ⟨hp, edits, he, (reparse_iff_allStay hp he).2 (of_decide_eq_true hstay)⟩

end StyleSplice
