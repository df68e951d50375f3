import StyleSplice.Proofs.Sheet.WellFormed

/-!
# Reading is local

What an item is depends on its own text only, but for an item without a semicolon, which has to know
that its container ends. So items that were read in one text are read again when the text goes on
after them, and when it is cut off at the closing brace of their block. Hence the contents of a block
are a style sheet of their own.
-/

namespace StyleSplice

namespace Item

variable {it : Item} {k r s : Text}

/-- In front of a closing brace the white space up to it is all that an item sees. -/
theorem Fits.of_brace {g r' : Text} (h : it.Fits (g ++ '}' :: r)) (ht : it.takesText)
    (hg : Text.All isGap g) (hr : r' = [] ∨ r'.head? = some '}') : it.Fits (g ++ r') := by
  obtain ⟨hregular, hends⟩ := (fits_iff ht).1 h
  refine (fits_iff ht).2 ⟨hregular, ?_⟩
  cases ho : it.isOpen with
  | false => exact endsIn_of_closed ho (closed_of_endsIn ho hends)
  | true =>
    obtain ⟨g', k, hg', hleaves, hk, hend, hspan⟩ := (endsIn_of_isOpen ho).1 hends
    have hclear : Text.Clear isGap k := clear_isGap_of_span hspan
    obtain ⟨rfl, rfl⟩ :=
      Text.append_cancel hg hg' (clear_isGap_of_isStop (c := '}') (by decide) r) hclear hk
    have hspan' := (closed_of_span hspan).span_append Text.all_nil hr
    exact (endsIn_of_isOpen ho).2 ⟨g, r', hg, hleaves, rfl, hr, by simpa using hspan'⟩

/-- An item that ends at a character of its own fits in front of any text. -/
theorem Fits.of_not_open {k' : Text} (h : it.Fits k) (ht : it.takesText) (ho : it.isOpen = false) :
    it.Fits k' := by
  obtain ⟨hregular, hends⟩ := (fits_iff ht).1 h
  exact (fits_iff ht).2 ⟨hregular, endsIn_of_closed ho (closed_of_endsIn ho hends)⟩

/-- Unless the text ends after it, an item without a semicolon stands in front of a closing brace. -/
theorem Fits.exists_brace (h : it.Fits k) (ho : it.isOpen = true) (hk : ¬ Text.All isGap k) :
    ∃ g r, Text.All isGap g ∧ k = g ++ '}' :: r := by
  obtain ⟨g, r, hg, -, rfl, hend, -⟩ := (endsIn_of_isOpen ho).1 (regular_of_item h).2
  rcases hend with rfl | hend
  · exact (hk (by simpa using hg)).elim
  · obtain ⟨r', rfl⟩ := List.head?_eq_some_iff.1 hend
    exact ⟨g, r', hg, rfl⟩

/-- What an item is does not change when the text goes on. -/
theorem Fits.extend (h : it.Fits k) (ht : it.takesText)
    (hk : it.isOpen = true → ¬ Text.All isGap k) (t : Text) : it.Fits (k ++ t) := by
  cases ho : it.isOpen with
  | false => exact h.of_not_open ht ho
  | true =>
    obtain ⟨g, r, hg, rfl⟩ := h.exists_brace ho (hk ho)
    rw [List.append_assoc]
    exact h.of_brace ht hg (by simp)

/-- What an item is does not change when the text is cut off at a closing brace. -/
theorem Fits.cut {x : Text} (h : it.Fits (x ++ '}' :: r)) (ht : it.takesText) : it.Fits x := by
  cases ho : it.isOpen with
  | false => exact h.of_not_open ht ho
  | true =>
    have hbrace : ¬ Text.All isGap (x ++ '}' :: r) := fun hall => by
      simpa [isGap] using hall '}' (by simp)
    obtain ⟨g, r', hg, heq⟩ := h.exists_brace ho hbrace
    rw [heq] at h
    rcases List.append_eq_append_iff.1 heq with ⟨y, rfl, hy⟩ | ⟨y, rfl, hy⟩
    · cases y with
      | nil => simpa using h.of_brace ht hg (.inl rfl)
      | cons c y =>
        obtain ⟨rfl, -⟩ := List.cons_eq_cons.1 hy
        simpa [isGap] using hg '}' (by simp)
    · cases y with
      | nil => simpa using h.of_brace ht hg (.inl rfl)
      | cons c y =>
        obtain ⟨rfl, -⟩ := List.cons_eq_cons.1 hy
        exact h.of_brace ht hg (by simp)

/-- In front of an item not everything is trivia. -/
theorem not_all_isTrivia (h : item s = .ok (it, r)) (ht : it.takesText) : ¬ Text.All isTrivia s := by
  intro hall
  rw [item_finish hall] at h
  cases h
  cases ht

end Item

/-- Items that were read are read again when the text goes on after them, unless the last of them
lacks its semicolon. -/
theorem Reads.extend {s r : Text} {its : List Item} (h : Reads s its r)
    (ht : ∀ it ∈ its, it.takesText) (hlast : ∀ it ∈ its.getLast?, it.isOpen = false) (t : Text) :
    Reads (s ++ t) its (r ++ t) := by
  induction h with
  | nil => exact .nil _
  | @cons s m r it its first rest ih =>
    have htake := ht it (by simp)
    have hrest : ∀ it ∈ its, it.takesText := fun i hi => ht i (by simp [hi])
    have hm : it.isOpen = true → ¬ Text.All isGap m := by
      intro ho hall
      cases rest with
      | nil =>
        rw [hlast it rfl] at ho
        cases ho
      | cons next _ =>
        exact Item.not_all_isTrivia next (hrest _ (by simp)) (Text.all_isTrivia_of_all_isGap hall)
    have hfits : it.Fits (m ++ t) := (fits_of_item first).extend htake hm t
    rw [Item.Fits, ← List.append_assoc, item_text first] at hfits
    refine .cons hfits (ih hrest fun i hi => ?_)
    cases its with
    | nil => cases hi
    | cons j js => exact hlast i (by simpa using hi)

/-- Items that were read up to a closing brace are read again when the text ends there. -/
theorem Reads.cut {s r before : Text} {its : List Item}
    (h : Reads s (its ++ [.closing before]) r) (ht : ∀ it ∈ its, it.takesText) :
    ∃ x, s = x ++ '}' :: r ∧ Reads x (its ++ [.finish before]) [] := by
  induction its generalizing s with
  | nil =>
    cases h with
    | cons first rest =>
      cases rest
      have hbefore : Text.All isTrivia before := (Item.regular_of_item first).1
      refine ⟨before, ?_, .cons (item_finish hbefore) (.nil [])⟩
      simpa [Item.text] using (item_text first).symm
  | cons it its ih =>
    cases h with
    | cons first rest =>
      obtain ⟨x, rfl, hx⟩ := ih rest fun i hi => ht i (by simp [hi])
      refine ⟨it.text ++ x, ?_, .cons ((fits_of_item first).cut (ht it (by simp))) hx⟩
      rw [← item_text first, List.append_assoc]

/-- The text between the braces of a block is read as a sheet of its own, with the same nodes. -/
theorem parse_inside_block {source : Text} {origin : Option Text} {t : Sheet}
    (h : Sheet.parse source origin = .ok t) {before after : Text} {hd : Head} {children : List Node}
    (hblock : .block before hd children after ∈ Node.walkAll t.children) (address : Option Text) :
    (∃ front back,
      source = front ++ '{' :: (Node.textOf children ++ after) ++ '}' :: back) ∧
    Sheet.parse (Node.textOf children ++ after) address = .ok ⟨children, after, address⟩ := by
  have hreads := (parse_eq_ok_iff.1 h).2
  obtain ⟨xs, ys, hitems⟩ := Node.exists_items_of_mem_walkAll hblock
  rw [Sheet.items, hitems, List.append_assoc, List.append_assoc] at hreads
  obtain ⟨m, hfront, hrest⟩ := hreads.split
  obtain ⟨back, hnode, -⟩ := hrest.split
  rw [Node.items_block] at hnode
  cases hnode with
  | cons first rest =>
    obtain ⟨x, rfl, hx⟩ := rest.cut Node.takesText_of_mem
    have hsheet : Reads x (Sheet.mk children after address).items [] := hx
    obtain rfl : (Sheet.mk children after address).text = x := Sheet.text_of_reads hsheet
    refine ⟨⟨Item.textOf xs ++ (before ++ hd.text), back, ?_⟩, parse_eq_ok_iff.2 ⟨rfl, hsheet⟩⟩
    rw [← hfront.append, ← item_text first]
    simp [Item.text, Sheet.text]

/-- A rule inside an at-rule, with an escaped brace, a brace in brackets and a declaration without its
semicolon. -/
theorem parse_inside_nested_block :
    let inner := " p\\\x7d\x7b a : (\x7d) \x7d ;".toList
    ∃ children after,
      Sheet.parse ("@media x\x7b".toList ++ inner ++ "\x7d ".toList) =
        .ok ⟨[.block [] (.atRule ⟨"media".toList, ['x'], [' '], []⟩) children after], [' '],
          none⟩ ∧
      Sheet.parse inner = .ok ⟨children, after, none⟩ := by
  intro inner
  let children : List Node := [.block [' '] (.rule "p\\\x7d".toList [])
    [.declaration ⟨['a'], "(\x7d)".toList, [' '], " : ".toList, [], false⟩] [' ']]
  let block : Node :=
    .block [] (.atRule ⟨"media".toList, ['x'], [' '], []⟩) children " ;".toList
  have h : Sheet.parse ("@media x\x7b".toList ++ inner ++ "\x7d ".toList) =
      .ok ⟨[block], [' '], none⟩ :=
    parse_eq_ok_iff.2
      ⟨rfl, .cons rfl (.cons rfl (.cons rfl (.cons rfl (.cons rfl (.cons rfl (.nil _))))))⟩
  have hblock : block ∈ Node.walkAll [block] := by simp [Node.walkAll, Node.walk, block]
  exact ⟨children, " ;".toList, h, (parse_inside_block h hblock none).2⟩

end StyleSplice
