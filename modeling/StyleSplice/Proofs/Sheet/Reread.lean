import StyleSplice.Proofs.Sheet.Stays

/-!
# Reading a tree again

A tree that was put together from trees that were read can be written down, but what is read then
may be another tree. It is read again, up to white space and semicolons, if and only if each of its
items stays what it is in front of those after it.
-/

namespace StyleSplice

namespace Item

variable {before k r : Text} {it : Item}

theorem bare_declaration {d e : Declaration}
    (h : (Item.leaf (.declaration d)).bare = (Item.leaf (.declaration e)).bare) :
    d.bare = e.bare := by simpa [Item.bare, Node.bare] using h

theorem bare_statement {lead lead' : Text} {hd hd' : AtHead} {semicolon semicolon' : Bool}
    (h : (Item.leaf (.statement lead hd semicolon)).bare =
      (Item.leaf (.statement lead' hd' semicolon')).bare) : hd.bare = hd'.bare := by
  simpa [Item.bare, Node.bare] using h

theorem bare_opening {lead lead' : Text} {hd hd' : AtHead}
    (h : (Item.opening lead (.atRule hd)).bare = (Item.opening lead' (.atRule hd')).bare) :
    hd.bare = hd'.bare := by simpa [Item.bare, Head.bare] using h

theorem stays_declaration {d : Declaration} (hs : d.Shaped)
    (h : ItemForm before ((Item.leaf (.declaration d)).core ++ k) it r)
    (hb : it.bare = (Item.leaf (.declaration d)).bare) :
    (Item.leaf (.declaration d)).Stays k ∧
      Text.trimStart isTrivia r = Text.trimStart isTrivia k := by
  have hcore : (Item.leaf (.declaration d)).core ++ k = d.property ++ (d.between ++ (d.value ++
      ((if d.semicolon then d.trailing ++ [';'] else []) ++ k))) := by simp [Item.core]
  rw [hcore] at h
  generalize hu : d.property ++ (d.between ++ (d.value ++
    ((if d.semicolon then d.trailing ++ [';'] else []) ++ k))) = u at h
  cases h with
  | declaration plain span_eq colon =>
    rw [← hu] at span_eq
    obtain ⟨htrim, g, hg, rfl, hk⟩ :=
      Declaration.exists_seam hs before span_eq colon (bare_declaration hb)
    by_cases hsemi : d.semicolon
    · simp only [hsemi, if_true, List.append_assoc, List.singleton_append] at hk span_eq
      obtain ⟨rfl, hr⟩ := Text.append_cancel hs.trailing hg
        (clear_isGap_of_isStop (c := ';') (by decide) k)
        (clear_isGap_of_isStop (c := ';') (by decide) r) hk
      cases hr
      refine ⟨⟨htrim, ?_⟩, rfl⟩
      rw [if_pos hsemi]
      refine (span_eq_ok_stop_iff (c := ';') (k := k) (by decide)).1 ?_
      simpa using span_eq
    · simp only [hsemi, Bool.false_eq_true, if_false, List.nil_append] at hk span_eq
      refine ⟨⟨htrim, ?_⟩, by rw [hk, trimStart_isTrivia_semicolon hg]⟩
      rw [if_neg hsemi]
      exact endsBefore_iff.2 ⟨g, ';' :: r, hg, by simpa using span_eq, by simp⟩
  | openDeclaration plain span_eq brace semi colon =>
    rw [← hu] at span_eq
    obtain ⟨htrim, g, hg, rfl, hk⟩ :=
      Declaration.exists_seam hs before span_eq colon (bare_declaration hb)
    by_cases hsemi : d.semicolon
    · simp only [hsemi, if_true, List.append_assoc, List.singleton_append] at hk
      obtain ⟨-, hr⟩ := Text.append_cancel hs.trailing hg
        (clear_isGap_of_isStop (c := ';') (by decide) k) (clear_isGap_of_span span_eq) hk
      simp [← hr] at semi
    · simp only [hsemi, Bool.false_eq_true, if_false, List.nil_append] at hk span_eq
      refine ⟨⟨htrim, ?_⟩, ?_⟩
      · rw [if_neg hsemi]
        exact endsBefore_iff.2 ⟨g, _, hg, by simpa using span_eq, brace⟩
      · rw [hk, trimStart_isTrivia_of_gaps hg]
        exact trimStart_isTrivia_of_gaps (Text.all_trailing isGap _)
  | _ => simp [Item.bare, Node.bare] at hb

theorem stays_statement {lead : Text} {hd : AtHead} {semicolon : Bool} (hs : hd.Shaped)
    (hbetween : semicolon = false → hd.between = [])
    (h : ItemForm before ((Item.leaf (.statement lead hd semicolon)).core ++ k) it r)
    (hb : it.bare = (Item.leaf (.statement lead hd semicolon)).bare) :
    (Item.leaf (.statement lead hd semicolon)).Stays k ∧
      Text.trimStart isTrivia r = Text.trimStart isTrivia k := by
  have hcore : (Item.leaf (.statement lead hd semicolon)).core ++ k =
      '@' :: (hd.name ++ (hd.afterName ++ (hd.params ++ (hd.between ++
        ((if semicolon then [';'] else []) ++ k))))) := by simp [Item.core, AtHead.text]
  rw [hcore] at h
  generalize hu : '@' :: (hd.name ++ (hd.afterName ++ (hd.params ++ (hd.between ++
    ((if semicolon then [';'] else []) ++ k))))) = u at h
  cases h with
  | statement name_eq span_eq =>
    cases hu
    have heq := bare_statement hb
    cases semicolon with
    | true =>
      obtain ⟨hr, hstay⟩ :=
        AtHead.closed_of_found (c := ';') (by decide) hs (by simpa using name_eq) span_eq heq
      cases hr
      exact ⟨hstay, rfl⟩
    | false =>
      rw [hbetween rfl] at name_eq
      obtain ⟨htrim, hclear, hends, g, hg, rfl⟩ :=
        AtHead.endsBefore_of_found (k := k) hs (by simpa using name_eq) span_eq (by simp) heq
      exact ⟨⟨htrim, hclear, hends⟩, (trimStart_isTrivia_semicolon hg).symm⟩
  | openStatement name_eq span_eq brace semi =>
    cases hu
    have heq := bare_statement hb
    cases semicolon with
    | true =>
      obtain ⟨hr, -⟩ :=
        AtHead.closed_of_found (c := ';') (by decide) hs (by simpa using name_eq) span_eq heq
      simp [hr] at semi
    | false =>
      have hgaps := (AtHead.shaped_ofRaw name_eq span_eq).between
      rw [hbetween rfl] at name_eq
      obtain ⟨htrim, hclear, hends, g, hg, rfl⟩ :=
        AtHead.endsBefore_of_found (k := k) hs (by simpa using name_eq) span_eq brace heq
      exact ⟨⟨htrim, hclear, hends⟩,
        by rw [trimStart_isTrivia_of_gaps hg, trimStart_isTrivia_of_gaps hgaps]⟩
  | _ => simp [Item.bare, Node.bare] at hb

/-- If an item is found again in front of `k`, it stays what it is there, and reading goes on where
`k` starts, up to trivia. -/
theorem stays_of_form {x : Item} (hs : x.Shaped) (ht : x.takesText)
    (h : ItemForm before (x.core ++ k) it r) (hb : it.bare = x.bare) :
    x.Stays k ∧ Text.trimStart isTrivia r = Text.trimStart isTrivia k := by
  cases x with
  | leaf n =>
    cases n with
    | comment lead body =>
      refine ⟨trivial, ?_⟩
      generalize hu : (Item.leaf (.comment lead body)).core ++ k = u at h
      cases h with
      | @comment s body' r body_eq =>
        have happ := commentBody?_append body_eq
        have hbody : body' = body := by simpa [Item.bare, Node.bare] using hb
        simp only [Item.core, List.cons_append, List.cons.injEq, true_and] at hu
        rw [hbody, ← hu] at happ
        have hr : r = k := by simpa using happ
        rw [hr]
      | _ => simp [Item.bare, Node.bare] at hb
    | declaration d => exact stays_declaration hs h hb
    | statement lead hd semicolon => exact stays_statement hs.2.1 hs.2.2 h hb
    | block => exact hs.elim
  | opening lead hd =>
    generalize hu : (Item.opening lead hd).core ++ k = u at h
    cases hd with
    | rule selector between =>
      refine ⟨trivial, ?_⟩
      have hspan : span u = .ok (selector ++ between, '{' :: k) := by
        have := (span_eq_ok_stop_iff (k := k) (c := '{') (by decide)).2 hs.2.closed
        rw [← hu]
        simpa [Item.core, Head.text] using this
      cases h with
      | rule plain span_eq =>
        rw [hspan] at span_eq
        cases span_eq
        rfl
      | _ => simp [Item.bare, Head.bare] at hb
    | atRule hd =>
      cases h with
      | atBlock name_eq span_eq =>
        have heq := bare_opening hb
        simp only [Item.core, Head.text, AtHead.text, List.cons_append, List.append_assoc,
          List.cons.injEq, true_and] at hu
        rw [← hu] at name_eq
        obtain ⟨hr, hstay⟩ :=
          AtHead.closed_of_found (c := '{') (k := k) (by decide) hs.2 (by simpa using name_eq)
            span_eq heq
        cases hr
        exact ⟨hstay, rfl⟩
      | _ => simp [Item.bare, Head.bare] at hb
  | closing lead =>
    refine ⟨trivial, ?_⟩
    generalize hu : (Item.closing lead).core ++ k = u at h
    cases h with
    | closing r =>
      cases hu
      rfl
    | _ => simp [Item.bare] at hb
  | finish lead => cases ht

theorem form_declaration {d : Declaration} (hs : d.Shaped)
    (h : (Item.leaf (.declaration d)).Stays k) (before : Text) :
    ∃ it r, ItemForm before ((Item.leaf (.declaration d)).core ++ k) it r ∧
      it.bare = (Item.leaf (.declaration d)).bare ∧
      Text.trimStart isTrivia r = Text.trimStart isTrivia k := by
  obtain ⟨htrim, h⟩ := h
  have hstarts : ∀ x, startsPlain (d.property ++ (d.between ++ x)) = true := fun x => by
    simpa using hs.starts x
  have hbare : ∀ {e : Declaration}, e.bare = d.bare →
      (Item.leaf (.declaration e)).bare = (Item.leaf (.declaration d)).bare := fun he => by
    simp [Item.bare, Node.bare, he]
  by_cases hsemi : d.semicolon
  · rw [if_pos hsemi] at h
    have hcore : (Item.leaf (.declaration d)).core ++ k =
        d.property ++ (d.between ++ (d.value ++ (d.trailing ++ ';' :: k))) := by
      simp [Item.core, hsemi]
    have hspan := (span_eq_ok_stop_iff (k := k) (c := ';') (by decide)).2 h
    obtain ⟨front, back, hcolon, he, -⟩ :=
      Declaration.found_of_span hs htrim hs.trailing before
    exact ⟨_, k, hcore ▸ ItemForm.declaration (hstarts _) (by simpa using hspan) hcolon,
      hbare he, rfl⟩
  · rw [if_neg hsemi] at h
    have hcore : (Item.leaf (.declaration d)).core ++ k =
        d.property ++ (d.between ++ (d.value ++ k)) := by simp [Item.core, hsemi]
    obtain ⟨g, r, hg, hspan, hbrace⟩ := endsBefore_iff.1 h
    have hk : k = g ++ r := eq_append_of_span hspan
    have hspan' : span (d.property ++ (d.between ++ (d.value ++ k))) =
        .ok (d.property ++ (d.between ++ (d.value ++ g)), r) := by simpa using hspan
    obtain ⟨front, back, hcolon, he, htrailing⟩ :=
      Declaration.found_of_span hs htrim hg before
    by_cases hr : r.head? = some ';'
    · obtain ⟨r', rfl⟩ := List.head?_eq_some_iff.1 hr
      exact ⟨_, r', hcore ▸ ItemForm.declaration (hstarts _) hspan' hcolon, hbare he,
        by rw [hk, trimStart_isTrivia_semicolon hg]⟩
    · rw [hcore]
      refine ⟨_, _, .openDeclaration (hstarts _) hspan' hbrace hr hcolon, hbare he, ?_⟩
      rw [hk, trimStart_isTrivia_of_gaps hg, trimStart_isTrivia_of_gaps htrailing]

theorem form_statement {lead : Text} {hd : AtHead} {semicolon : Bool} (hs : hd.Shaped)
    (hbetween : semicolon = false → hd.between = [])
    (h : (Item.leaf (.statement lead hd semicolon)).Stays k) (before : Text) :
    ∃ it r, ItemForm before ((Item.leaf (.statement lead hd semicolon)).core ++ k) it r ∧
      it.bare = (Item.leaf (.statement lead hd semicolon)).bare ∧
      Text.trimStart isTrivia r = Text.trimStart isTrivia k := by
  obtain ⟨htrim, h⟩ := h
  have hbare : ∀ {e : AtHead} {b : Bool}, e.bare = hd.bare →
      (Item.leaf (.statement before e b)).bare =
        (Item.leaf (.statement lead hd semicolon)).bare := fun he => by
    simp [Item.bare, Node.bare, he]
  cases semicolon with
  | true =>
    have hcore : (Item.leaf (.statement lead hd true)).core ++ k = '@' :: (hd.name ++
        (hd.afterName ++ (hd.params ++ (hd.between ++ ';' :: k)))) := by
      simp [Item.core, AtHead.text]
    obtain ⟨x, raw, hname, hspan, he⟩ :=
      AtHead.found_of_closed (c := ';') (by decide) hs htrim h k
    exact ⟨_, k, hcore ▸ ItemForm.statement hname hspan, hbare he, rfl⟩
  | false =>
    have hcore : (Item.leaf (.statement lead hd false)).core ++ k = '@' :: (hd.name ++
        (hd.afterName ++ (hd.params ++ k))) := by
      simp [Item.core, AtHead.text, hbetween rfl]
    obtain ⟨x, raw, g, r, hname, hspan, hbrace, hg, hk, he⟩ :=
      AtHead.found_of_endsBefore hs htrim h.1 h.2
    by_cases hr : r.head? = some ';'
    · obtain ⟨r', rfl⟩ := List.head?_eq_some_iff.1 hr
      exact ⟨_, r', hcore ▸ ItemForm.statement hname hspan, hbare he,
        by rw [hk, trimStart_isTrivia_semicolon hg]⟩
    · have hgaps := (AtHead.shaped_ofRaw hname hspan).between
      rw [hcore]
      refine ⟨_, _, .openStatement hname hspan hbrace hr, hbare he, ?_⟩
      rw [hk, trimStart_isTrivia_of_gaps hg, trimStart_isTrivia_of_gaps hgaps]

/-- An item that stays what it is in front of `k` is found again there. -/
theorem form_of_stays {x : Item} (hs : x.Shaped) (ht : x.takesText) (h : x.Stays k)
    (before : Text) :
    ∃ it r, ItemForm before (x.core ++ k) it r ∧ it.bare = x.bare ∧
      Text.trimStart isTrivia r = Text.trimStart isTrivia k := by
  cases x with
  | leaf n =>
    cases n with
    | comment lead body =>
      have hcore : (Item.leaf (.comment lead body)).core ++ k =
          '/' :: '*' :: (body ++ '*' :: '/' :: k) := by simp [Item.core]
      exact ⟨.leaf (.comment before body), k, hcore ▸ ItemForm.comment (hs.2 k),
        by simp [Item.bare, Node.bare], rfl⟩
    | declaration d => exact form_declaration hs h before
    | statement lead hd semicolon => exact form_statement hs.2.1 hs.2.2 h before
    | block => exact hs.elim
  | opening lead hd =>
    cases hd with
    | rule selector between =>
      have hspan : span (selector ++ between ++ '{' :: k) =
          .ok (selector ++ between, '{' :: k) :=
        (span_eq_ok_stop_iff (k := k) (c := '{') (by decide)).2 hs.2.closed
      have hcore : (Item.opening lead (.rule selector between)).core ++ k =
          selector ++ between ++ '{' :: k := by simp [Item.core, Head.text]
      refine ⟨_, k, hcore ▸ ItemForm.rule (hs.2.starts k) hspan, ?_, rfl⟩
      rw [Text.trimEnd_append_of_all _ hs.2.gaps, hs.2.trimmed]
      rfl
    | atRule hd =>
      obtain ⟨x, raw, hname, hspan, hbare⟩ :=
        AtHead.found_of_closed (c := '{') (by decide) hs.2 h.1 h.2 k
      have hcore : (Item.opening lead (.atRule hd)).core ++ k = '@' :: (hd.name ++
          (hd.afterName ++ (hd.params ++ (hd.between ++ '{' :: k)))) := by
        simp [Item.core, Head.text, AtHead.text]
      refine ⟨_, k, hcore ▸ ItemForm.atBlock hname hspan, ?_, rfl⟩
      simp [Item.bare, Head.bare, hbare]
  | closing lead => exact ⟨_, k, .closing k, rfl, rfl⟩
  | finish lead => cases ht

/-- Items are found again in a text that starts with theirs, up to trivia, if and only if each of
them stays. -/
theorem exists_reads_iff {xs : List Item} {after s : Text}
    (hs : ∀ x ∈ xs, x.Shaped ∧ x.takesText) (hafter : Text.All isTrivia after)
    (h : Text.trimStart isTrivia s =
      Text.trimStart isTrivia (Item.textOf (xs ++ [.finish after]))) :
    (∃ its, Reads s its [] ∧ its.map Item.bare = (xs ++ [Item.finish after]).map Item.bare) ↔
      Item.AllStay (xs ++ [Item.finish after]) := by
  induction xs generalizing s with
  | nil =>
    have hnil : Text.trimStart isTrivia s = [] := by
      rw [h, List.nil_append, Item.textOf_cons, Item.textOf_nil]
      exact Text.trimStart_of_all hafter []
    have hread : item s = .ok (.finish (Text.leading isTrivia s), []) := by
      rw [item_eq_ok_iff, hnil]
      exact .finish
    exact ⟨fun _ => ⟨trivial, trivial⟩, fun _ => ⟨_, .cons hread (.nil []), rfl⟩⟩
  | cons x xs ih =>
    obtain ⟨hx, ht⟩ := hs x (by simp)
    have hrest : ∀ y ∈ xs, y.Shaped ∧ y.takesText := fun y hy => hs y (by simp [hy])
    have hcore : Text.trimStart isTrivia s =
        x.core ++ Item.textOf (xs ++ [.finish after]) := by
      rw [h, List.cons_append, Item.textOf_cons, ← x.before_append_core, List.append_assoc,
        Text.trimStart_of_all (all_before hx), Text.trimStart_of_clear (clear_core hx ht _)]
    rw [List.cons_append, List.map_cons, Item.AllStay]
    constructor
    · rintro ⟨its, hreads, hbare⟩
      cases hreads with
      | nil => cases hbare
      | @cons s r r' it its first rest =>
        rw [List.map_cons, List.cons.injEq] at hbare
        have hform := item_eq_ok_iff.1 first
        rw [hcore] at hform
        obtain ⟨hstay, hr⟩ := stays_of_form hx ht hform hbare.1
        exact ⟨hstay, (ih hrest hr).1 ⟨its, rest, hbare.2⟩⟩
    · rintro ⟨hstay, hall⟩
      obtain ⟨it, r, hform, hbare, hr⟩ := form_of_stays hx ht hstay (Text.leading isTrivia s)
      obtain ⟨its, hreads, hits⟩ := (ih hrest hr).2 hall
      rw [← hcore] at hform
      exact ⟨it :: its, .cons (item_eq_ok_iff.2 hform) hreads, by rw [List.map_cons, hbare, hits]⟩

end Item

theorem Node.items_bareOf {ns : List Node}
    (h : ∀ n ∈ ns, n.bare.items = n.items.map Item.bare) :
    Node.itemsOf (Node.bareOf ns) = (Node.itemsOf ns).map Item.bare := by
  induction ns with
  | nil => simp [Node.bareOf]
  | cons n ns ih => simp [Node.bareOf, h n (by simp), ih fun m hm => h m (by simp [hm])]

/-- Taking the white space from the items takes it from the node. -/
theorem Node.items_bare (n : Node) : n.bare.items = n.items.map Item.bare := by
  induction n using Node.induction with
  | leaf n hn =>
    cases n with
    | block => simp at hn
    | _ => simp [Node.bare, Node.items, Item.bare]
  | block before h children after ih =>
    simp [Node.bare, Node.items_bareOf ih, Item.bare]

theorem Sheet.items_bare (t : Sheet) : t.bare.items = t.items.map Item.bare := by
  simp [Sheet.items, Sheet.bare, Node.items_bareOf fun n _ => n.items_bare, Item.bare]

/-- Items that differ from those of a list of nodes in white space only are the items of such a
list, if this is so for each node. -/
theorem Node.exists_of_map_bare_itemsOf {ns : List Node}
    (h : ∀ n ∈ ns, ∀ its : List Item, its.map Item.bare = n.items.map Item.bare →
      ∃ m : Node, m.items = its ∧ m.bare = n.bare) (its : List Item)
    (hits : its.map Item.bare = (Node.itemsOf ns).map Item.bare) :
    ∃ ms, Node.itemsOf ms = its ∧ Node.bareOf ms = Node.bareOf ns := by
  induction ns generalizing its with
  | nil =>
    rw [Node.itemsOf_nil, List.map_nil, List.map_eq_nil_iff] at hits
    exact ⟨[], by simp [hits], rfl⟩
  | cons n ns ih =>
    rw [Node.itemsOf_cons, List.map_append] at hits
    obtain ⟨xs, ys, rfl, hxs, hys⟩ := List.map_eq_append_iff.1 hits
    obtain ⟨m, rfl, hm⟩ := h n (by simp) xs hxs
    obtain ⟨ms, rfl, hms⟩ := ih (fun k hk => h k (by simp [hk])) ys hys
    exact ⟨m :: ms, by simp, by rw [Node.bareOf, Node.bareOf, hm, hms]⟩

theorem Node.exists_of_map_bare_items (n : Node) (its : List Item)
    (hits : its.map Item.bare = n.items.map Item.bare) :
    ∃ m : Node, m.items = its ∧ m.bare = n.bare := by
  induction n using Node.induction generalizing its with
  | leaf n hn =>
    rw [hn] at hits
    obtain ⟨it, rfl, hit⟩ := List.map_eq_singleton_iff.1 hits
    cases it with
    | leaf m =>
      have hm : m.bare = n.bare := by simpa [Item.bare] using hit
      refine ⟨m, ?_, hm⟩
      cases m with
      | block => cases n <;> simp [Node.bare] at hm hn
      | _ => simp [Node.items]
    | _ => simp [Item.bare] at hit
  | block before h children after ih =>
    rw [Node.items_block, List.map_cons, List.map_append] at hits
    obtain ⟨x, xs, rfl, hx, hxs⟩ := List.map_eq_cons_iff.1 hits
    obtain ⟨ys, zs, rfl, hys, hzs⟩ := List.map_eq_append_iff.1 hxs
    obtain ⟨z, rfl, hz⟩ := List.map_eq_singleton_iff.1 hzs
    obtain ⟨ms, rfl, hms⟩ := Node.exists_of_map_bare_itemsOf ih ys hys
    cases x with
    | opening before' h' =>
      cases z with
      | closing after' =>
        have hh : h'.bare = h.bare := by simpa [Item.bare] using hx
        exact ⟨.block before' h' ms after', by simp, by rw [Node.bare, Node.bare, hh, hms]⟩
      | _ => simp [Item.bare] at hz
    | _ => simp [Item.bare] at hx

/-- A tree of the shape of those that were read is read again from its text, up to white space and
semicolons, if and only if each of its items stays. -/
theorem Sheet.exists_parse_text_iff {t : Sheet} (hs : Node.AllShaped t.children)
    (hafter : Text.All isTrivia t.after) :
    (∃ t', Sheet.parse t.text t.origin = .ok t' ∧ t'.bare = t.bare) ↔ Item.AllStay t.items := by
  have hxs : ∀ x ∈ Node.itemsOf t.children, x.Shaped ∧ x.takesText := fun x hx =>
    ⟨hs x hx, Node.takesText_of_mem x hx⟩
  have htext : Text.trimStart isTrivia t.text = Text.trimStart isTrivia (Item.textOf t.items) := by
    rw [Sheet.textOf_items]
  refine Iff.trans ?_ (Item.exists_reads_iff hxs hafter htext)
  constructor
  · rintro ⟨t', hparse, hbare⟩
    refine ⟨t'.items, (parse_eq_ok_iff.1 hparse).2, ?_⟩
    exact (t'.items_bare.symm.trans (by rw [hbare])).trans t.items_bare
  · rintro ⟨its, hreads, hits⟩
    rw [List.map_append] at hits
    obtain ⟨xs, ys, rfl, hxs, hys⟩ := List.map_eq_append_iff.1 hits
    obtain ⟨y, rfl, hy⟩ := List.map_eq_singleton_iff.1 hys
    obtain ⟨ms, rfl, hms⟩ := Node.exists_of_map_bare_itemsOf
      (fun n _ its => n.exists_of_map_bare_items its) xs hxs
    cases y with
    | finish after =>
      refine ⟨⟨ms, after, t.origin⟩, parse_eq_ok_iff.2 ⟨rfl, hreads⟩, ?_⟩
      rw [Sheet.bare, Sheet.bare, hms]
    | _ => simp [Item.bare] at hy

/-- In a tree that was read every item stays what it is. -/
theorem Sheet.allStay_of_parse {source : Text} {origin : Option Text} {t : Sheet}
    (h : Sheet.parse source origin = .ok t) : Item.AllStay t.items := by
  obtain ⟨hs, hafter⟩ := Sheet.shaped_of_parse h
  have hr := (parse_eq_ok_iff.1 h).2
  have htext : t.text = source := by
    rw [← Sheet.textOf_items, ← List.append_nil (Item.textOf _), hr.append]
  refine (Sheet.exists_parse_text_iff hs hafter).1 ⟨t, parse_eq_ok_iff.2 ⟨rfl, ?_⟩, rfl⟩
  rw [htext]
  exact hr

end StyleSplice
