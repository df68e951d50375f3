import StyleSplice.Proofs.Sheet.Items
import StyleSplice.Proofs.Sheet.Regular

/-!
# Well-formed trees

The trees that the reader gives back from their text. Each node has fields that the reader fills in,
no head leaves anything open, and a node without a semicolon is the last one of its container. Trees
that were read are well formed if their heads are complete: only the last head of a text may leave
something open.
-/

namespace StyleSplice

/-- In a container that ends with the text `after` only the last node may lack its semicolon, and then
`after` neither has one nor becomes a part of the node. -/
def Node.EndIn (ns : List Node) (after : Text) : Prop :=
  (∀ n ∈ ns.dropLast, n.isOpen = false) ∧
    ∀ n ∈ ns.getLast?, n.isOpen = true → ';' ∉ after ∧ n.LeavesGap after

/-- The fields of a node, without those of its children. -/
def Node.Regular : Node → Prop
  | .block before h children after =>
    Text.All isTrivia before ∧ h.Regular ∧ Text.All isTrivia after ∧ Node.EndIn children after
  | n => (Item.leaf n).Regular

/-- Nothing is left open in the head of a node. -/
def Node.Complete : Node → Prop
  | .block _ h _ _ => Closed h.raw
  | n => Closed (Item.leaf n).raw

/-- The fields of a sheet and of all its nodes are those that the reader fills in. -/
structure Sheet.Regular (t : Sheet) : Prop where
  nodes : ∀ n ∈ Node.walkAll t.children, n.Regular
  after : Text.All isTrivia t.after
  ends : Node.EndIn t.children t.after

/-- Nothing is left open in the head of any node. -/
def Sheet.Complete (t : Sheet) : Prop := ∀ n ∈ Node.walkAll t.children, n.Complete

/-- A sheet that the reader gives back from its text. -/
structure Sheet.WellFormed (t : Sheet) : Prop extends t.Regular where
  complete : t.Complete

namespace Node

variable {n : Node} {ns : List Node} {k s r after : Text}

theorem regular_of_leaf (h : n.items = [.leaf n]) : n.Regular ↔ (Item.leaf n).Regular := by
  cases n with
  | block => simp at h
  | _ => rfl

theorem complete_of_leaf (h : n.items = [.leaf n]) : n.Complete ↔ Closed (Item.leaf n).raw := by
  cases n with
  | block => simp at h
  | _ => rfl

theorem items_of_isOpen (h : n.isOpen = true) : n.items = [.leaf n] := by
  cases n with
  | declaration d => rfl
  | statement before h semicolon => rfl
  | _ => cases h

/-- The container of a node ends in front of `k`. -/
def LastIn (k : Text) (n : Node) : Prop :=
  ∃ g r, Text.All isGap g ∧ n.LeavesGap g ∧ k = g ++ r ∧ (r = [] ∨ r.head? = some '}')

theorem fits_leaf (hn : n.items = [.leaf n]) (hr : n.Regular) (hc : n.Complete)
    (hlast : n.isOpen = true → n.LastIn k) : (Item.leaf n).Fits k := by
  rw [regular_of_leaf hn] at hr
  rw [complete_of_leaf hn] at hc
  refine Item.fits_of_regular hr rfl ?_
  cases ho : (Item.leaf n).isOpen with
  | true =>
    obtain ⟨g, r, hg, hleaves, rfl, hend⟩ := hlast ho
    exact (Item.endsIn_of_isOpen ho).2 ⟨g, r, hg, hleaves, rfl, hend, hc.span_append hg hend⟩
  | false => exact Item.endsIn_of_closed ho hc

/-- A list of nodes is read again if each of its nodes is, in front of the next one or of the end of
the container. -/
theorem reads_itemsOf_of_forall
    (hn : ∀ n ∈ ns, ∀ k, (n.isOpen = true → n.LastIn k) → Reads (n.text ++ k) n.items k)
    (hfront : ∀ n ∈ ns.dropLast, n.isOpen = false)
    (hlast : ∀ n ∈ ns.getLast?, n.isOpen = true → n.LastIn k) :
    Reads (textOf ns ++ k) (itemsOf ns) k := by
  induction ns with
  | nil => exact .nil k
  | cons n ns ih =>
    rw [textOf_cons, itemsOf_cons, List.append_assoc]
    have hrest : ∀ m ∈ ns, ∀ k, (m.isOpen = true → m.LastIn k) → Reads (m.text ++ k) m.items k :=
      fun m hm => hn m (by simp [hm])
    cases ns with
    | nil =>
      refine (hn n (by simp) _ fun ho => ?_).trans (.nil k)
      exact hlast n rfl ho
    | cons m ns =>
      rw [List.dropLast_cons_of_ne_nil (by simp)] at hfront
      have hopen : n.isOpen = false := hfront n (by simp)
      refine (hn n (by simp) _ fun ho => ?_).trans
        (ih hrest (fun m hm => hfront m (by simp [hm])) (by simpa using hlast))
      rw [hopen] at ho
      cases ho

/-- White space without a semicolon, in front of the end of a container. -/
theorem lastIn_of_endIn (hafter : Text.All isTrivia after) (h : EndIn ns after)
    (hk : k = [] ∨ k.head? = some '}') :
    ∀ n ∈ ns.getLast?, n.isOpen = true → n.LastIn (after ++ k) := by
  intro n hn ho
  obtain ⟨hsemi, hleaves⟩ := h.2 n hn ho
  refine ⟨after, k, fun c hc => ?_, hleaves, rfl, hk⟩
  have htrivia := hafter c hc
  rw [isTrivia, Bool.or_eq_true, beq_iff_eq] at htrivia
  exact htrivia.resolve_right fun hcs => hsemi (hcs ▸ hc)

/-- A well-formed node is read again from its text. -/
theorem reads_of_wellFormed (hr : ∀ m ∈ n.walk, m.Regular) (hc : ∀ m ∈ n.walk, m.Complete)
    (hlast : n.isOpen = true → n.LastIn k) : Reads (n.text ++ k) n.items k := by
  induction n using Node.induction generalizing k with
  | leaf n hn =>
    have hfits := fits_leaf hn (hr n (mem_walk_self n)) (hc n (mem_walk_self n)) hlast
    rw [hn]
    exact .cons hfits (.nil k)
  | block before h children after ih =>
    have hblock := hr _ (mem_walk_self _)
    obtain ⟨hbefore, hhead, hafter, hends⟩ := hblock
    have hopening : (Item.opening before h).Fits (textOf children ++ (after ++ '}' :: k)) :=
      Item.fits_of_regular ⟨hbefore, hhead⟩ rfl
        (Item.endsIn_of_closed rfl (hc (.block before h children after) (mem_walk_self _)))
    have hclosing : (Item.closing after).Fits k :=
      Item.fits_of_regular hafter rfl (Item.endsIn_of_closed rfl .done)
    have hinner : ∀ m ∈ children, ∀ j ∈ m.walk, j ∈ (Node.block before h children after).walk :=
      fun m hm j hj => by
        rw [walk]
        exact List.mem_cons_of_mem _ (mem_walkAll.2 ⟨m, hm, hj⟩)
    have hchildren : Reads (textOf children ++ (after ++ '}' :: k)) (itemsOf children)
        (after ++ '}' :: k) :=
      reads_itemsOf_of_forall
        (fun m hm k hk => ih m hm (fun j hj => hr j (hinner m hm j hj))
          (fun j hj => hc j (hinner m hm j hj)) hk)
        hends.1 (lastIn_of_endIn hafter hends (by simp))
    have hclose : Reads (after ++ '}' :: k) [.closing after] k := by
      refine .cons ?_ (.nil k)
      simpa [Item.Fits, Item.text] using hclosing
    have htext : (Node.block before h children after).text ++ k =
        (Item.opening before h).text ++ (textOf children ++ (after ++ '}' :: k)) := by
      simp [Node.text, Item.text]
    rw [htext, items_block]
    exact .cons hopening (hchildren.trans hclose)

/-- In a container that was read only the last node may lack its semicolon. -/
theorem endIn_of_reads {it : Item} (h : Reads s (itemsOf ns ++ [it]) r)
    (hit : it = .closing after ∨ it = .finish after) : EndIn ns after := by
  induction ns generalizing s with
  | nil => exact ⟨by simp, by simp⟩
  | cons n ns ih =>
    rw [itemsOf_cons, List.append_assoc] at h
    obtain ⟨m, hn, hrest⟩ := h.split
    obtain ⟨hfront, hlast⟩ := ih hrest
    -- what follows a node without a semicolon is the end of the container
    have hnext : n.isOpen = true → ns = [] ∧ ';' ∉ after ∧ n.LeavesGap after := by
      intro ho
      rw [items_of_isOpen ho] at hn
      cases hn with
      | cons first rest =>
        cases rest
        obtain ⟨g, hg, hleaves, hend⟩ := Item.next_of_isOpen first ho
        have hsemi : ';' ∉ g := fun hmem => by simpa [isGap] using hg ';' hmem
        cases ns with
        | nil =>
          cases hrest with
          | cons first' rest' =>
            have hg : g = after := by
              rcases hend with hend | ⟨r', hend⟩ <;> rcases hit with rfl | rfl <;>
                simp_all
            exact ⟨rfl, hg ▸ hsemi, hg ▸ hleaves⟩
        | cons n' ns =>
          have hfirst : ∃ i is, n'.items = i :: is ∧ (∀ g, i ≠ .closing g ∧ i ≠ .finish g) := by
            cases n' <;> simp [items]
          obtain ⟨i, is, hitems, hi⟩ := hfirst
          rw [itemsOf_cons, hitems] at hrest
          cases hrest with
          | cons first' rest' =>
            have hne := hi g
            rcases hend with hend | ⟨r', hend⟩ <;> simp_all
    cases ns with
    | nil =>
      refine ⟨by simp, fun m hm ho => ?_⟩
      obtain rfl : n = m := by simpa using hm
      exact (hnext ho).2
    | cons n' ns =>
      refine ⟨fun m hm => ?_, by simpa using hlast⟩
      rw [List.dropLast_cons_of_ne_nil (by simp), List.mem_cons] at hm
      rcases hm with rfl | hm
      · exact Bool.eq_false_iff.2 fun ho => by simpa using (hnext ho).1
      · exact hfront m hm

/-- The fields of a node that was read are those that the reader fills in. -/
theorem regular_of_reads (h : Reads s n.items r) : n.Regular := by
  cases n with
  | block before hd children after =>
    rw [items_block] at h
    cases h with
    | cons first rest =>
      have hopening := (Item.regular_of_item first).1
      have hends := endIn_of_reads rest (.inl rfl)
      obtain ⟨m, -, hclose⟩ := rest.split
      cases hclose with
      | cons last rest' => exact ⟨hopening.1, hopening.2, (Item.regular_of_item last).1, hends⟩
  | _ =>
    cases h with
    | cons first rest => exact (Item.regular_of_item first).1

end Node

/-- The fields of a sheet that was read are those that the reader fills in. -/
theorem Sheet.regular_of_parse {source : Text} {origin : Option Text} {t : Sheet}
    (h : Sheet.parse source origin = .ok t) : t.Regular := by
  have hreads := (parse_eq_ok_iff.1 h).2
  refine ⟨fun n hn => ?_, (Sheet.shaped_of_parse h).2, Node.endIn_of_reads hreads (.inr rfl)⟩
  obtain ⟨xs, ys, hitems⟩ := Node.exists_items_of_mem_walkAll hn
  rw [Sheet.items, hitems, List.append_assoc, List.append_assoc] at hreads
  obtain ⟨m, -, hrest⟩ := hreads.split
  obtain ⟨m', hnode, -⟩ := hrest.split
  exact Node.regular_of_reads hnode

/-- A sheet is well formed if and only if its heads are complete and the reader gives it back from
its text. -/
theorem Sheet.wellFormed_iff_parse_text {t : Sheet} :
    t.WellFormed ↔ t.Complete ∧ Sheet.parse t.text t.origin = .ok t := by
  constructor
  · intro h
    refine ⟨h.complete, parse_eq_ok_iff.2 ⟨rfl, ?_⟩⟩
    have hchildren : Reads (Node.textOf t.children ++ t.after) (Node.itemsOf t.children) t.after := by
      refine Node.reads_itemsOf_of_forall
        (fun n hn k hk => Node.reads_of_wellFormed
          (fun m hm => h.nodes m (Node.mem_walkAll.2 ⟨n, hn, hm⟩))
          (fun m hm => h.complete m (Node.mem_walkAll.2 ⟨n, hn, hm⟩)) hk)
        h.ends.1 ?_
      simpa using Node.lastIn_of_endIn h.after h.ends (.inl rfl)
    exact hchildren.trans (.cons (item_finish h.after) (.nil []))
  · rintro ⟨hcomplete, hparse⟩
    exact ⟨Sheet.regular_of_parse hparse, hcomplete⟩

/-- The text in front of the closing brace of a node. Without a block there is none. -/
def Node.after : Node → Text
  | .block _ _ _ after => after
  | _ => []

/-- Only the last node of a container may lack its semicolon, and then the text up to the end of the
container has none either. -/
def Node.EndsOnce (ns : List Node) (after : Text) : Prop :=
  (∀ n ∈ ns.dropLast, n.isOpen = false) ∧ ∀ n ∈ ns.getLast?, n.isOpen = true → ';' ∉ after

/-- White space stands around the parameters of an at-rule and not at their ends. -/
structure AtHead.Tidy (h : AtHead) : Prop where
  afterName : Text.All isGap h.afterName
  params : Text.Trimmed isGap h.params
  between : Text.All isGap h.between

/-- White space stands around the parts of a declaration and not at their ends, with one colon between
the property and the value. -/
structure Declaration.Tidy (d : Declaration) : Prop where
  property : Text.Trimmed isGap d.property
  value : Text.Trimmed isGap d.value
  between : Text.All (fun c => isGap c || c == ':') d.between
  colon : d.between.count ':' = 1
  trailing : Text.All isGap d.trailing
  opened : d.semicolon = false → d.trailing = []

/-- What the parts of a node and the texts between them hold. -/
def Node.Tidy : Node → Prop
  | .comment _ body => ¬ ['*', '/'] <:+: body
  | .declaration d => d.Tidy
  | .statement _ h semicolon => h.Tidy ∧ (semicolon = false → h.between = [])
  | .block _ (.rule selector between) children after =>
    Text.trimEnd isGap selector = selector ∧ Text.All isGap between ∧ EndsOnce children after
  | .block _ (.atRule h) children after => h.Tidy ∧ EndsOnce children after

theorem AtHead.Regular.tidy {h : AtHead} (hr : h.Regular) : h.Tidy :=
  ⟨hr.afterName, hr.params, hr.between⟩

theorem Declaration.Regular.tidy {d : Declaration} (hr : d.Regular) : d.Tidy := by
  obtain ⟨lead, tail, hlead, htail, hbetween, -⟩ := hr.colon
  have hno : ∀ g : Text, Text.All isGap g → g.count ':' = 0 := fun g hg =>
    List.count_eq_zero.2 fun hc => absurd (hg ':' hc) (by decide)
  refine ⟨hr.property, hr.value, fun c hc => ?_, ?_, hr.trailing, hr.opened⟩
  · rw [hbetween, List.mem_append, List.mem_cons] at hc
    rcases hc with hc | rfl | hc
    · simp [hlead c hc]
    · simp
    · simp [htail c hc]
  · rw [hbetween, List.count_append, List.count_cons_self, hno lead hlead, hno tail htail]

theorem Node.EndIn.endsOnce {ns : List Node} {after : Text} (h : EndIn ns after) :
    EndsOnce ns after := ⟨h.1, fun n hn ho => (h.2 n hn ho).1⟩

/-- Trivia stand around a node whose fields the reader fills in. -/
theorem Node.Regular.trivia {n : Node} (hr : n.Regular) :
    Text.All isTrivia n.before ∧ Text.All isTrivia n.after := by
  cases n with
  | comment before body => exact ⟨hr.1, Text.all_nil⟩
  | declaration d => exact ⟨Declaration.Regular.before hr, Text.all_nil⟩
  | statement before h semicolon => exact ⟨hr.1, Text.all_nil⟩
  | block before h children after => exact ⟨hr.1, hr.2.2.1⟩

theorem Node.Regular.tidy {n : Node} (hr : n.Regular) : n.Tidy := by
  cases n with
  | comment before body => exact hr.2
  | declaration d => exact Declaration.Regular.tidy hr
  | statement before h semicolon => exact ⟨hr.2.1.tidy, hr.2.2⟩
  | block before hd children after =>
    obtain ⟨-, hhead, -, hends⟩ := hr
    cases hd with
    | rule selector between =>
      have hrule : RuleRegular selector between := hhead
      exact ⟨hrule.trimmed, hrule.gaps, hends.endsOnce⟩
    | atRule h => exact ⟨AtHead.Regular.tidy hhead, hends.endsOnce⟩

/-- In a sheet that was read only white space and semicolons stand around the nodes, at every depth,
only white space and one colon stand between the parts of a node, and the parts have no white space at
their ends. A node without its semicolon is the last one of its container, nothing stands behind its
parts, and no semicolon follows in the container. -/
theorem tidy_of_parse {source : Text} {origin : Option Text} {t : Sheet}
    (h : Sheet.parse source origin = .ok t) :
    Text.All isTrivia t.after ∧ Node.EndsOnce t.children t.after ∧
      ∀ n ∈ Node.walkAll t.children, Text.All isTrivia n.before ∧ Text.All isTrivia n.after ∧
        n.Tidy ∧ ∀ before hd semicolon, n = .statement before hd semicolon → n.after = [] := by
  have hr := Sheet.regular_of_parse h
  refine ⟨hr.after, hr.ends.endsOnce, fun n hn => ?_⟩
  obtain ⟨hbefore, hafter⟩ := (hr.nodes n hn).trivia
  refine ⟨hbefore, hafter, (hr.nodes n hn).tidy, ?_⟩
  rintro before hd semicolon rfl
  rfl

/-- A declaration without a semicolon in front of a brace, and an at-rule without one at the end of
the text. -/
theorem tidy_of_parse_open :
    let t : Sheet := ⟨[.block [] (.rule ['a'] [' '])
        [.declaration ⟨['b'], ['c'], " ;".toList, " : ".toList, [], false⟩] ['\n'],
      .statement ['\n'] ⟨"layer".toList, "(x;".toList, [' '], []⟩ false], [' '], none⟩
    Sheet.parse "a \x7b ;b : c\n\x7d\n@layer (x; ".toList = .ok t ∧
      Node.EndsOnce t.children t.after ∧
      (∀ n ∈ Node.walkAll t.children, n.Tidy) ∧ Text.All isTrivia t.after := by
  intro t
  have h : Sheet.parse "a \x7b ;b : c\n\x7d\n@layer (x; ".toList = .ok t :=
    parse_eq_ok_iff.2 ⟨rfl, .cons rfl (.cons rfl (.cons rfl (.cons rfl (.cons rfl (.nil _)))))⟩
  obtain ⟨hafter, hends, hnodes⟩ := tidy_of_parse h
  exact ⟨h, hends, fun n hn => (hnodes n hn).2.2.1, hafter⟩

end StyleSplice
