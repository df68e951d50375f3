import StyleSplice.Proofs.Sheet.Forms
import StyleSplice.Sheet.Walk

/-!
# A sheet as the list of its items

A tree and the list of its items, in the order of the text, say the same: a block is its opening,
the items of its children and its closing. Reading a text item by item and reading it as a tree
therefore come to the same, and what holds of every single item holds of the whole sheet.
-/

namespace StyleSplice

mutual

/-- The items that a node takes up. -/
def Node.items : Node → List Item
  | .block before h children after =>
    .opening before h :: (Node.itemsOf children ++ [.closing after])
  | n => [.leaf n]

/-- The items of a list of nodes. -/
def Node.itemsOf : List Node → List Item
  | [] => []
  | n :: ns => n.items ++ Node.itemsOf ns

end

@[simp] theorem Node.itemsOf_nil : Node.itemsOf [] = [] := by simp [Node.itemsOf]

@[simp] theorem Node.itemsOf_cons (n : Node) (ns : List Node) :
    Node.itemsOf (n :: ns) = n.items ++ Node.itemsOf ns := by simp [Node.itemsOf]

@[simp] theorem Node.itemsOf_append (ms ns : List Node) :
    Node.itemsOf (ms ++ ns) = Node.itemsOf ms ++ Node.itemsOf ns := by
  induction ms with
  | nil => simp
  | cons m ms ih => simp [ih]

@[simp] theorem Node.items_block (before : Text) (h : Head) (children : List Node) (after : Text) :
    (Node.block before h children after).items =
      .opening before h :: (Node.itemsOf children ++ [.closing after]) := by simp [Node.items]

theorem Node.mem_itemsOf {it : Item} {ns : List Node} :
    it ∈ Node.itemsOf ns ↔ ∃ n ∈ ns, it ∈ n.items := by
  induction ns with
  | nil => simp
  | cons n ns ih => simp [ih]

theorem Node.walk_of_leaf {n : Node} (hn : n.items = [.leaf n]) : n.walk = [n] := by
  cases n with
  | block => simp at hn
  | _ => simp [Node.walk]

/-- The items of a sheet, with the end of the text. -/
def Sheet.items (t : Sheet) : List Item := Node.itemsOf t.children ++ [.finish t.after]

/-- The text of a list of items. -/
def Item.textOf (its : List Item) : Text := its.flatMap Item.text

@[simp] theorem Item.textOf_nil : Item.textOf [] = [] := rfl

@[simp] theorem Item.textOf_cons (it : Item) (its : List Item) :
    Item.textOf (it :: its) = it.text ++ Item.textOf its := by simp [Item.textOf]

@[simp] theorem Item.textOf_append (xs ys : List Item) :
    Item.textOf (xs ++ ys) = Item.textOf xs ++ Item.textOf ys := by simp [Item.textOf]

/-- A property of all nodes holds by one argument for the nodes without children and one for the
blocks, which may use it for the children. -/
theorem Node.induction {P : Node → Prop} (leaf : ∀ n : Node, n.items = [.leaf n] → P n)
    (block : ∀ before h children after, (∀ n ∈ children, P n) → P (.block before h children after))
    (n : Node) : P n := by
  refine Node.rec (motive_1 := P) (motive_2 := fun ns => ∀ n ∈ ns, P n) ?_ ?_ ?_ ?_ ?_ ?_ n
  · exact fun before body => leaf _ (by simp [Node.items])
  · exact fun d => leaf _ (by simp [Node.items])
  · exact fun before h semicolon => leaf _ (by simp [Node.items])
  · exact fun before h children after ih => block before h children after ih
  · simp
  · intro n ns hn hns m hm
    rcases List.mem_cons.1 hm with rfl | hm
    · exact hn
    · exact hns m hm

/-- A list of nodes has the text of its items if each node has. -/
theorem Node.textOf_itemsOf_of_forall {ns : List Node}
    (h : ∀ n ∈ ns, Item.textOf n.items = n.text) :
    Item.textOf (Node.itemsOf ns) = Node.textOf ns := by
  induction ns with
  | nil => simp
  | cons n ns ih => simp [h n (by simp), ih fun m hm => h m (by simp [hm])]

@[simp] theorem Node.textOf_items (n : Node) : Item.textOf n.items = n.text := by
  induction n using Node.induction with
  | leaf n hn => simp [hn, Item.text]
  | block before h children after ih =>
    simp [Node.textOf_itemsOf_of_forall ih, Item.text, Node.text]

@[simp] theorem Node.textOf_itemsOf (ns : List Node) :
    Item.textOf (Node.itemsOf ns) = Node.textOf ns :=
  Node.textOf_itemsOf_of_forall fun n _ => n.textOf_items

theorem Sheet.textOf_items (t : Sheet) : Item.textOf t.items = t.text := by
  simp [Sheet.items, Node.textOf_itemsOf, Item.text, Sheet.text]

/-- The items of a node at any depth of a list stand next to each other. -/
theorem Node.exists_items_of_mem_walkAll {n : Node} {ns : List Node} (h : n ∈ Node.walkAll ns) :
    ∃ xs ys, Node.itemsOf ns = xs ++ (n.items ++ ys) := by
  have hlist : ∀ ns : List Node,
      (∀ m ∈ ns, n ∈ m.walk → ∃ xs ys, m.items = xs ++ (n.items ++ ys)) →
      n ∈ Node.walkAll ns → ∃ xs ys, Node.itemsOf ns = xs ++ (n.items ++ ys) := by
    intro ns hns h
    obtain ⟨m, hm, hn⟩ := Node.mem_walkAll.1 h
    obtain ⟨xs, ys, hmid⟩ := hns m hm hn
    obtain ⟨front, back, rfl⟩ := List.append_of_mem hm
    exact ⟨Node.itemsOf front ++ xs, ys ++ Node.itemsOf back, by simp [hmid]⟩
  have hnode : ∀ m : Node, n ∈ m.walk → ∃ xs ys, m.items = xs ++ (n.items ++ ys) := by
    intro m
    induction m using Node.induction with
    | leaf m hm =>
      intro hn
      rw [Node.walk_of_leaf hm, List.mem_singleton] at hn
      exact ⟨[], [], by simp [hn]⟩
    | block before h children after ih =>
      intro hn
      rw [Node.walk, List.mem_cons] at hn
      rcases hn with rfl | hn
      · exact ⟨[], [], by simp⟩
      · obtain ⟨xs, ys, hmid⟩ := hlist children ih hn
        exact ⟨.opening before h :: xs, ys ++ [.closing after], by simp [hmid]⟩
  exact hlist ns (fun m _ => hnode m) h

theorem Node.takesText_of_mem {ns : List Node} : ∀ it ∈ Node.itemsOf ns, it.takesText := by
  have hnode : ∀ n : Node, ∀ it ∈ n.items, it.takesText := fun n => by
    induction n using Node.induction with
    | leaf n hn => simp [hn, Item.takesText]
    | block before h children after ih =>
      intro it hit
      rw [Node.items_block, List.mem_cons, List.mem_append, List.mem_singleton] at hit
      rcases hit with rfl | hit | rfl
      · rfl
      · obtain ⟨n, hn, hmem⟩ := Node.mem_itemsOf.1 hit
        exact ih n hn it hmem
      · rfl
  intro it hit
  obtain ⟨n, -, hmem⟩ := Node.mem_itemsOf.1 hit
  exact hnode n it hmem

/-- Reading a text item by item: the items and the text that is left. -/
inductive Reads : Text → List Item → Text → Prop
  | nil (s : Text) : Reads s [] s
  | cons {s r r' : Text} {it : Item} {its : List Item} (first : item s = .ok (it, r))
      (rest : Reads r its r') : Reads s (it :: its) r'

/-- Items that were read and the text that is left make up the text. -/
theorem Reads.append {s r : Text} {its : List Item} (h : Reads s its r) :
    Item.textOf its ++ r = s := by
  induction h with
  | nil => rfl
  | cons first rest ih => simp [ih, item_text first]

/-- The items of the blocks that are still open, the outermost first. -/
def OpenBlock.itemsOf : List OpenBlock → List Item
  | [] => []
  | o :: stack =>
    OpenBlock.itemsOf stack ++ Node.itemsOf o.siblings.reverse ++ [.opening o.before o.head]

/-- No block is read as an item of its own. -/
theorem items_of_item {s r : Text} {n : Node} (h : item s = .ok (.leaf n, r)) :
    n.items = [.leaf n] := by
  have hf := item_eq_ok_iff.1 h
  generalize hi : Item.leaf n = it at hf
  generalize Text.trimStart isTrivia s = u at hf
  cases hf with
  | comment => cases hi; simp [Node.items]
  | statement => cases hi; simp [Node.items]
  | openStatement => cases hi; simp [Node.items]
  | declaration => cases hi; simp [Node.items]
  | openDeclaration => cases hi; simp [Node.items]
  | _ => cases hi

/-- Nothing is left after the end of a text. -/
theorem rest_of_item_finish {s r after : Text} (h : item s = .ok (.finish after, r)) : r = [] := by
  have hf := item_eq_ok_iff.1 h
  generalize hi : Item.finish after = it at hf
  generalize Text.trimStart isTrivia s = u at hf
  cases hf with
  | finish => rfl
  | _ => cases hi

/-- What was read before and what is read from the text on make up the items of the tree. -/
theorem reads_of_readNodes {stack : List OpenBlock} {done ns : List Node} {s after : Text}
    (h : readNodes stack done s = .ok (ns, after)) :
    ∃ its, Reads s its [] ∧
      OpenBlock.itemsOf stack ++ Node.itemsOf done.reverse ++ its =
        Node.itemsOf ns ++ [.finish after] := by
  fun_induction readNodes stack done s with
  | case1 => cases h
  | case2 stack done s n r hi ih =>
    obtain ⟨its, hr, he⟩ := ih h
    refine ⟨.leaf n :: its, .cons hi hr, ?_⟩
    simpa [items_of_item hi] using he
  | case3 stack done s before head r hi ih =>
    obtain ⟨its, hr, he⟩ := ih h
    exact ⟨.opening before head :: its, .cons hi hr, by simpa [OpenBlock.itemsOf] using he⟩
  | case4 => cases h
  | case5 done s before r hi o stack ih =>
    rw [List.unattach_reverse, List.unattach_attach] at ih
    obtain ⟨its, hr, he⟩ := ih h
    exact ⟨.closing before :: its, .cons hi hr, by simpa [OpenBlock.itemsOf] using he⟩
  | case6 done s before r hi =>
    simp only [Except.ok.injEq, Prod.mk.injEq] at h
    obtain ⟨rfl, rfl⟩ := h
    rw [rest_of_item_finish hi] at hi
    exact ⟨[.finish before], .cons hi (.nil []), by simp [OpenBlock.itemsOf]⟩
  | case7 => cases h

theorem readNodes_leaf {s r : Text} {n : Node} (h : item s = .ok (.leaf n, r))
    (stack : List OpenBlock) (done : List Node) :
    readNodes stack done s = readNodes stack (n :: done) r := by
  rw [readNodes]
  split <;> simp_all

theorem readNodes_opening {s r before : Text} {hd : Head}
    (h : item s = .ok (.opening before hd, r)) (stack : List OpenBlock) (done : List Node) :
    readNodes stack done s = readNodes (⟨before, hd, r, done⟩ :: stack) [] r := by
  rw [readNodes]
  split <;> simp_all

theorem readNodes_closing {s r after : Text} (h : item s = .ok (.closing after, r))
    (o : OpenBlock) (stack : List OpenBlock) (done : List Node) :
    readNodes (o :: stack) done s =
      readNodes stack (.block o.before o.head done.reverse after :: o.siblings) r := by
  rw [readNodes]
  split <;> simp_all

theorem readNodes_finish {s r after : Text} (h : item s = .ok (.finish after, r))
    (done : List Node) : readNodes [] done s = .ok (done.reverse, after) := by
  rw [readNodes]
  split <;> simp_all

theorem readNodes_error {s : Text} {f : SheetFault} (h : item s = .error f)
    (stack : List OpenBlock) (done : List Node) : readNodes stack done s = .error f := by
  rw [readNodes]
  split <;> simp_all

theorem readNodes_unexpectedBrace {s r after : Text} (h : item s = .ok (.closing after, r))
    (done : List Node) : readNodes [] done s = .error ⟨.unexpectedBrace, '}' :: r⟩ := by
  rw [readNodes]
  split <;> simp_all

theorem readNodes_unclosedBlock {s r after : Text} (h : item s = .ok (.finish after, r))
    (o : OpenBlock) (stack : List OpenBlock) (done : List Node) :
    readNodes (o :: stack) done s = .error ⟨.unclosedBlock, '{' :: o.inner⟩ := by
  rw [readNodes]
  split <;> simp_all

theorem Reads.split {s r : Text} {xs ys : List Item} (h : Reads s (xs ++ ys) r) :
    ∃ m, Reads s xs m ∧ Reads m ys r := by
  induction xs generalizing s with
  | nil => exact ⟨s, .nil s, h⟩
  | cons x xs ih =>
    cases h with
    | cons first rest =>
      obtain ⟨m, hx, hy⟩ := ih rest
      exact ⟨m, .cons first hx, hy⟩

theorem Reads.trans {s m r : Text} {xs ys : List Item} (hx : Reads s xs m) (hy : Reads m ys r) :
    Reads s (xs ++ ys) r := by
  induction hx with
  | nil => exact hy
  | cons first _ ih => exact .cons first (ih hy)

/-- A list of nodes goes to the innermost open block if each of its nodes does. -/
theorem readNodes_itemsOf_of_forall {ns : List Node}
    (hn : ∀ n ∈ ns, ∀ s r stack done, Reads s n.items r →
      readNodes stack done s = readNodes stack (n :: done) r) {s r : Text}
    (h : Reads s (Node.itemsOf ns) r) (stack : List OpenBlock) (done : List Node) :
    readNodes stack done s = readNodes stack (ns.reverse ++ done) r := by
  induction ns generalizing s done with
  | nil => cases h; rfl
  | cons n ns ih =>
    rw [Node.itemsOf_cons] at h
    obtain ⟨m, hfirst, hrest⟩ := h.split
    rw [hn n (by simp) s m stack done hfirst, ih (fun k hk => hn k (by simp [hk])) hrest]
    simp

/-- Reading the items of a node adds the node to the innermost open block. -/
theorem readNodes_items {n : Node} {s r : Text} (h : Reads s n.items r) (stack : List OpenBlock)
    (done : List Node) : readNodes stack done s = readNodes stack (n :: done) r := by
  induction n using Node.induction generalizing s r stack done with
  | leaf n hn =>
    rw [hn] at h
    cases h with
    | cons first rest =>
      cases rest
      exact readNodes_leaf first stack done
  | block before hd children after ih =>
    rw [Node.items_block] at h
    cases h with
    | cons first rest =>
      obtain ⟨m, hin, hend⟩ := rest.split
      cases hend with
      | cons last rest =>
        cases rest
        rw [readNodes_opening first,
          readNodes_itemsOf_of_forall (fun n hn s r stack done h => ih n hn h stack done) hin,
          readNodes_closing last]
        simp

/-- A text is read as a tree if and only if it is read as the items of the tree. -/
theorem parse_eq_ok_iff {source : Text} {origin : Option Text} {t : Sheet} :
    Sheet.parse source origin = .ok t ↔ t.origin = origin ∧ Reads source t.items [] := by
  constructor
  · intro h
    unfold Sheet.parse at h
    split at h
    · rename_i children after hread
      cases h
      obtain ⟨its, hr, he⟩ := reads_of_readNodes hread
      simp only [OpenBlock.itemsOf, List.reverse_nil, Node.itemsOf_nil, List.append_nil,
        List.nil_append] at he
      exact ⟨rfl, by rw [Sheet.items, ← he]; exact hr⟩
    · cases h
  · rintro ⟨rfl, h⟩
    obtain ⟨m, hin, hend⟩ := h.split
    cases hend with
    | cons last rest =>
      unfold Sheet.parse
      rw [readNodes_itemsOf_of_forall (fun n _ s r stack done h => readNodes_items h stack done)
        hin, readNodes_finish last]
      simp

/-- The items of a tree that were read from a text make up the text. -/
theorem Sheet.text_of_reads {source : Text} {t : Sheet} (h : Reads source t.items []) :
    t.text = source :=
  calc
    t.text = Item.textOf t.items ++ [] := by rw [Sheet.textOf_items, List.append_nil]
    _ = source := h.append

/-- Writing down the tree of a text gives the text, character by character. -/
theorem text_of_parse {source : Text} {origin : Option Text} {t : Sheet}
    (h : Sheet.parse source origin = .ok t) : t.text = source := by
  obtain ⟨-, hr⟩ := parse_eq_ok_iff.1 h
  exact Sheet.text_of_reads hr

/-- A sheet that ends in the middle of its white space, with stray semicolons, an empty parameter
list, an escape before the end of a block and an open bracket inside a block. -/
theorem text_of_parse_stray :
    let source := "@media x\x7ba:b\\;c ;;\n@layer (\x7d) \\\n\x7d;/* \" */ ".toList
    ∃ t, Sheet.parse source = .ok t ∧ t.text = source := by
  have h : Sheet.parse "@media x\x7ba:b\\;c ;;\n@layer (\x7d) \\\n\x7d;/* \" */ ".toList =
      .ok ⟨[.block [] (.atRule ⟨"media".toList, ['x'], [' '], []⟩)
          [.declaration ⟨['a'], "b\\;c".toList, [], [':'], [' '], true⟩,
            .statement ";\n".toList ⟨"layer".toList, "(\x7d) \\".toList, [' '], []⟩ false] ['\n'],
        .comment [';'] " \" ".toList], [' '], none⟩ :=
    parse_eq_ok_iff.2
      ⟨rfl, .cons rfl (.cons rfl (.cons rfl (.cons rfl (.cons rfl (.cons rfl (.nil _))))))⟩
  exact ⟨_, h, text_of_parse h⟩

end StyleSplice
