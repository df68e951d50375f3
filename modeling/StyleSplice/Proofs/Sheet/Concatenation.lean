import StyleSplice.Proofs.Sheet.Mistakes

/-!
# One text after another

Two texts one after the other are read as the nodes of the first and then those of the second, unless
the last node of the first one lacks its semicolon. Trivia between the two go to the first node of the
second. A mistake in the second text is the mistake of both.
-/

namespace StyleSplice

/-- The nodes with more text in front of the first one. -/
def Node.behind (a : Text) : List Node → List Node
  | [] => []
  | n :: ns => n.withBefore (a ++ n.before) :: ns

/-- The sheet of a text after that of another text. -/
def Sheet.followedBy (t u : Sheet) : Sheet where
  children := t.children ++ Node.behind t.after u.children
  after := if u.children = [] then t.after ++ u.after else u.after
  origin := t.origin

/-- The item with another text in front of it. -/
def Item.withBefore (before : Text) : Item → Item
  | .leaf n => .leaf (n.withBefore before)
  | .opening _ h => .opening before h
  | .closing _ => .closing before
  | .finish _ => .finish before

theorem plainItem_withBefore (before before' s raw stop : Text) :
    plainItem before' s raw stop =
      (plainItem before s raw stop).map fun x => (x.1.withBefore before', x.2) := by
  unfold plainItem
  split
  · rfl
  · split
    · rfl
    · simp only
      split <;> rfl

theorem atRuleItem_withBefore (before before' name raw stop : Text) :
    atRuleItem before' name raw stop =
      ((atRuleItem before name raw stop).1.withBefore before',
        (atRuleItem before name raw stop).2) := by
  unfold atRuleItem
  split <;> rfl

/-- What stands in front of an item makes no difference to what it is, nor to a mistake in it. -/
theorem itemAfter_withBefore (before before' s : Text) :
    itemAfter before' s =
      (itemAfter before s).map fun x => (x.1.withBefore before', x.2) := by
  unfold itemAfter
  split
  · rfl
  · rfl
  · split <;> rfl
  · split
    · rfl
    · split
      · rfl
      · rename_i name _ _ _ raw stop _
        rw [atRuleItem_withBefore before before' name raw stop]
        rfl
  · split
    · rfl
    · exact plainItem_withBefore before before' _ _ _

theorem Item.before_of_item {s r : Text} {it : Item} (h : item s = .ok (it, r)) :
    it.before = Text.leading isTrivia s := by
  have hform := item_eq_ok_iff.1 h
  generalize Text.leading isTrivia s = before at hform
  generalize Text.trimStart isTrivia s = u at hform
  cases hform <;> rfl

/-- Texts that differ in the trivia in front start with the same item, or with the same mistake. -/
theorem item_of_trimStart_eq {s s' : Text}
    (h : Text.trimStart isTrivia s = Text.trimStart isTrivia s') :
    item s' = (item s).map fun x => (x.1.withBefore (Text.leading isTrivia s'), x.2) := by
  rw [item, item, h]
  exact itemAfter_withBefore ..

/-- Trivia in front of an item go to the text in front of it. -/
theorem item_behind {a s r : Text} {it : Item} (ha : Text.All isTrivia a)
    (h : item s = .ok (it, r)) : item (a ++ s) = .ok (it.withBefore (a ++ it.before), r) := by
  rw [item_of_trimStart_eq (Text.trimStart_of_all ha s).symm, h, Item.before_of_item h,
    Text.leading_of_all ha]
  rfl

theorem Node.items_withBefore (n : Node) (before : Text) :
    ∃ it its, n.items = it :: its ∧ it.before = n.before ∧
      (n.withBefore before).items = it.withBefore before :: its := by
  cases n with
  | block b h children after => exact ⟨.opening b h, _, items_block .., rfl, items_block ..⟩
  | comment b body => exact ⟨_, [], rfl, rfl, rfl⟩
  | declaration d => exact ⟨_, [], rfl, rfl, rfl⟩
  | statement b h semicolon => exact ⟨_, [], rfl, rfl, rfl⟩

/-- Nothing but trivia is left in front of the end of a text. -/
theorem Reads.of_finish {s after : Text} (h : Reads s [.finish after] []) :
    s = after ∧ Text.All isTrivia after := by
  cases h with
  | cons first rest =>
    cases rest
    exact ⟨by simpa [Item.text] using (item_text first).symm, (Item.regular_of_item first).1⟩

/-- A sheet is read after trivia as well. -/
theorem Reads.behind {a s : Text} {u : Sheet} (ha : Text.All isTrivia a) (h : Reads s u.items []) :
    Reads (a ++ s) (Node.itemsOf (Node.behind a u.children) ++
      [.finish (if u.children = [] then a ++ u.after else u.after)]) [] := by
  obtain ⟨children, after, origin⟩ := u
  cases children with
  | nil =>
    obtain ⟨rfl, hs⟩ := Reads.of_finish h
    exact .cons (item_finish (Text.all_append.2 ⟨ha, hs⟩)) (.nil [])
  | cons n ns =>
    obtain ⟨it, its, hitems, hbefore, hwith⟩ := n.items_withBefore (a ++ n.before)
    rw [Sheet.items, Node.itemsOf_cons, hitems] at h
    rw [Node.behind, Node.itemsOf_cons, hwith, if_neg (by simp)]
    cases h with
    | cons first rest =>
      have hfirst := item_behind ha first
      rw [hbefore] at hfirst
      exact .cons hfirst rest

/-- The mistake in a text depends neither on trivia in front nor on the nodes read before it: of the
open blocks only the places count. -/
theorem readNodes_eq_error {stack stack' : List OpenBlock} {done done' : List Node} {s s' : Text}
    {f : SheetFault} (hstack : stack.map OpenBlock.inner = stack'.map OpenBlock.inner)
    (hs : Text.trimStart isTrivia s = Text.trimStart isTrivia s')
    (h : readNodes stack done s = .error f) : readNodes stack' done' s' = .error f := by
  fun_induction readNodes stack done s generalizing stack' done' s' with
  | case1 stack done s e hi =>
    cases h
    exact readNodes_error (by rw [item_of_trimStart_eq hs, hi]; rfl) stack' done'
  | case2 stack done s n r hi ih =>
    rw [readNodes_leaf (by rw [item_of_trimStart_eq hs, hi]; rfl)]
    exact ih hstack rfl h
  | case3 stack done s before head r hi ih =>
    rw [readNodes_opening (by rw [item_of_trimStart_eq hs, hi]; rfl)]
    exact ih (by simp [hstack]) rfl h
  | case4 done s before r hi =>
    cases h
    obtain rfl : stack' = [] := by simpa using hstack
    exact readNodes_unexpectedBrace (by rw [item_of_trimStart_eq hs, hi]; rfl) done'
  | case5 done s before r hi o stack ih =>
    rw [List.unattach_reverse, List.unattach_attach] at ih
    obtain ⟨o', stack', rfl, -, htail⟩ := List.map_eq_cons_iff.1 hstack.symm
    rw [readNodes_closing (by rw [item_of_trimStart_eq hs, hi]; rfl)]
    exact ih htail.symm rfl h
  | case6 => cases h
  | case7 done s before r hi o stack =>
    cases h
    obtain ⟨o', stack', rfl, hinner, -⟩ := List.map_eq_cons_iff.1 hstack.symm
    rw [← hinner]
    exact readNodes_unclosedBlock (by rw [item_of_trimStart_eq hs, hi]; rfl) o' stack' done'

/-- The last item of nodes lacks its semicolon only if the last node does. -/
theorem Node.isOpen_getLast_itemsOf {ns : List Node} (h : ∀ n ∈ ns.getLast?, n.isOpen = false) :
    ∀ it ∈ (Node.itemsOf ns).getLast?, it.isOpen = false := by
  rcases List.eq_nil_or_concat ns with rfl | ⟨ns, n, rfl⟩
  · simp
  · have hn : n.isOpen = false := h n (by simp)
    intro it hit
    cases n with
    | block before hd children after =>
      rw [List.concat_eq_append, itemsOf_append, itemsOf_cons, items_block, itemsOf_nil,
        List.append_nil, ← List.cons_append, ← List.append_assoc, List.getLast?_concat] at hit
      cases hit
      rfl
    | _ =>
      obtain rfl : Item.leaf _ = it := by simpa [Node.items] using hit
      exact hn

/-- Two texts one after the other are a style sheet if and only if the second one is after the first
one, unless the last node of the first one lacks its semicolon. The nodes are those of both; the trivia
at the end of the first text go to the first node of the second one. The mistake of the second text is
the mistake of both, and stands as far behind as the first text is long. -/
theorem parse_append {s : Text} {origin : Option Text} {u : Sheet}
    (h : Sheet.parse s origin = .ok u) (hlast : ∀ n ∈ u.children.getLast?, n.isOpen = false)
    (t : Text) (address : Option Text) :
    Sheet.parse (s ++ t) origin = (Sheet.parse t address).map u.followedBy ∧
      ∀ f, Sheet.parse t address = .error f → f.index (s ++ t) = s.length + f.index t := by
  obtain ⟨rfl, hreads⟩ := parse_eq_ok_iff.1 h
  obtain ⟨r, hfront, hend⟩ := hreads.split
  obtain ⟨rfl, hafter⟩ := hend.of_finish
  have hboth : Reads (s ++ t) (Node.itemsOf u.children) (u.after ++ t) :=
    hfront.extend Node.takesText_of_mem (Node.isOpen_getLast_itemsOf hlast) t
  cases ht : Sheet.parse t address with
  | ok v =>
    refine ⟨parse_eq_ok_iff.2 ⟨rfl, ?_⟩, by simp⟩
    have hv := Reads.behind hafter (parse_eq_ok_iff.1 ht).2
    have hsheet := hboth.trans hv
    rw [← List.append_assoc, ← Node.itemsOf_append] at hsheet
    exact hsheet
  | error f =>
    constructor
    · unfold Sheet.parse at ht ⊢
      split at ht
      · cases ht
      · rename_i hread
        cases ht
        rw [readNodes_itemsOf_of_forall
            (fun n _ s r stack done h => readNodes_items h stack done) hboth,
          readNodes_eq_error rfl (Text.trimStart_of_all hafter t).symm hread]
        rfl
    · rintro f' ⟨⟩
      obtain ⟨front, hfront, -⟩ := Sheet.exists_shows_of_parse ht
      have hboth : s ++ t = s ++ front ++ f.rest := by rw [List.append_assoc, ← hfront]
      rw [SheetFault.index_eq hfront, SheetFault.index_eq hboth, List.length_append]

/-- Trivia between a block and a comment, and a block that the second text opens. -/
theorem parse_append_after_block :
    let s := "@layer a;b\x7bc:d\x7d ;\n".toList
    (∃ u, Sheet.parse s = .ok u ∧ Sheet.parse (s ++ "/**/ ".toList) =
      .ok ⟨u.children ++ [.comment " ;\n".toList []], [' '], none⟩) ∧
      Sheet.parse (s ++ "e\x7b".toList) = .error ⟨.unclosedBlock, ['{']⟩ := by
  intro s
  have hs : Sheet.parse s = .ok ⟨[.statement [] ⟨"layer".toList, ['a'], [' '], []⟩ true,
      .block [] (.rule ['b'] []) [.declaration ⟨['c'], ['d'], [], [':'], [], false⟩] []],
        " ;\n".toList, none⟩ :=
    parse_eq_ok_iff.2 ⟨rfl, .cons rfl (.cons rfl (.cons rfl (.cons rfl (.cons rfl (.nil _)))))⟩
  have hcomment : Sheet.parse "/**/ ".toList = .ok ⟨[.comment [] []], [' '], none⟩ :=
    parse_eq_ok_iff.2 ⟨rfl, .cons rfl (.cons rfl (.nil _))⟩
  have hopen : Sheet.parse "e\x7b".toList = .error ⟨.unclosedBlock, ['{']⟩ := by
    rw [Sheet.parse, readNodes_opening (r := []) rfl, readNodes_unclosedBlock rfl]
  have hlast (t : Text) := (parse_append hs (by simp [Node.isOpen]) t none).1
  refine ⟨⟨_, hs, ?_⟩, ?_⟩
  · rw [hlast, hcomment]
    rfl
  · rw [hlast, hopen]
    rfl

end StyleSplice
