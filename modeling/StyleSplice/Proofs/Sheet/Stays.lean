import StyleSplice.Proofs.Sheet.Shape

/-!
# Items that stay

An item that was put in front of some text need not be read there as the item that it is: an at-rule
or a declaration without a semicolon goes on in whatever follows it, and a condition or an address
that was put into a head may leave something open there. This says when an item stays what it is, and
that the raw text of a head or a declaration is found again just then.
-/

namespace StyleSplice

/-- The head without its white space. -/
def AtHead.bare (h : AtHead) : AtHead := ⟨h.name, h.params, [], []⟩

/-- The declaration without its white space and its semicolon. -/
def Declaration.bare (d : Declaration) : Declaration := ⟨d.property, d.value, [], [], [], true⟩

/-- The head without its white space. -/
def Head.bare : Head → Head
  | .rule selector _ => .rule selector []
  | .atRule h => .atRule h.bare

mutual

/-- The node without white space and semicolons. -/
def Node.bare : Node → Node
  | .comment _ body => .comment [] body
  | .declaration d => .declaration d.bare
  | .statement _ h _ => .statement [] h.bare true
  | .block _ h children _ => .block [] h.bare (Node.bareOf children) []

/-- The nodes without white space and semicolons. -/
def Node.bareOf : List Node → List Node
  | [] => []
  | n :: ns => n.bare :: Node.bareOf ns

end

/-- The sheet without white space and semicolons. -/
def Sheet.bare (t : Sheet) : Sheet := ⟨Node.bareOf t.children, [], t.origin⟩

/-- The item without white space and semicolons. -/
def Item.bare : Item → Item
  | .leaf n => .leaf n.bare
  | .opening _ h => .opening [] h.bare
  | .closing _ => .closing []
  | .finish _ => .finish []

/-- A raw text without a character of its own at its end ends in front of `k`, save for white space:
nothing else is left, or a semicolon or a closing brace follows and nothing is open there. -/
def EndsBefore (raw k : Text) : Prop :=
  match Text.trimStart isGap k with
  | [] => span (raw ++ k) = .ok (raw ++ k, [])
  | c :: _ => (c = ';' ∨ c = '}') ∧ Closed (raw ++ Text.leading isGap k)

instance (raw k : Text) : Decidable (EndsBefore raw k) := by
  unfold EndsBefore
  split <;> infer_instance

/-- The item stays what it is in front of the text `k`. -/
def Item.Stays (k : Text) : Item → Prop
  | .leaf (.declaration d) =>
    Text.Trimmed isGap d.value ∧
      if d.semicolon then Closed (d.property ++ (d.between ++ (d.value ++ d.trailing)))
      else EndsBefore (d.property ++ (d.between ++ d.value)) k
  | .leaf (.statement _ h semicolon) =>
    Text.Trimmed isGap h.params ∧
      if semicolon then Closed (h.afterName ++ (h.params ++ h.between))
      else Text.Clear isNameMore (h.afterName ++ (h.params ++ k)) ∧
        EndsBefore (h.afterName ++ h.params) k
  | .opening _ (.atRule h) =>
    Text.Trimmed isGap h.params ∧ Closed (h.afterName ++ (h.params ++ h.between))
  | _ => True

instance (k : Text) : (it : Item) → Decidable (it.Stays k)
  | .leaf (.declaration d) => inferInstanceAs (Decidable (Text.Trimmed isGap d.value ∧
      if d.semicolon then _ else _))
  | .leaf (.statement _ h semicolon) => inferInstanceAs (Decidable (Text.Trimmed isGap h.params ∧
      if semicolon then _ else _ ∧ _))
  | .opening _ (.atRule h) => inferInstanceAs (Decidable (Text.Trimmed isGap h.params ∧ Closed _))
  | .leaf (.comment ..) => instDecidableTrue
  | .leaf (.block ..) => instDecidableTrue
  | .opening _ (.rule ..) => instDecidableTrue
  | .closing _ => instDecidableTrue
  | .finish _ => instDecidableTrue

/-- Every item stays what it is in front of those after it. -/
def Item.AllStay : List Item → Prop
  | [] => True
  | it :: its => it.Stays (Item.textOf its) ∧ Item.AllStay its

instance : (its : List Item) → Decidable (Item.AllStay its)
  | [] => instDecidableTrue
  | _ :: its =>
    haveI : Decidable (Item.AllStay its) := instDecidableAllStay its
    inferInstanceAs (Decidable (_ ∧ _))

/-- The text in front of an item. -/
def Item.before : Item → Text
  | .leaf n => n.before
  | .opening before _ => before
  | .closing before => before
  | .finish before => before

/-- The text of an item after the text in front of it. -/
def Item.core : Item → Text
  | .leaf (.comment _ body) => '/' :: '*' :: (body ++ ['*', '/'])
  | .leaf (.declaration d) =>
    d.property ++ (d.between ++ (d.value ++ if d.semicolon then d.trailing ++ [';'] else []))
  | .leaf (.statement _ h semicolon) => h.text ++ if semicolon then [';'] else []
  | .leaf (.block _ h children after) => h.text ++ '{' :: (Node.textOf children ++ (after ++ ['}']))
  | .opening _ h => h.text ++ ['{']
  | .closing _ => ['}']
  | .finish _ => []

theorem Item.before_append_core (it : Item) : it.before ++ it.core = it.text := by
  cases it with
  | leaf n =>
    cases n <;> simp [Item.before, Item.core, Item.text, Node.before, Node.text, Declaration.text]
  | opening before h => simp [Item.before, Item.core, Item.text]
  | closing before => rfl
  | finish before => simp [Item.before, Item.core, Item.text]

theorem Item.all_before {it : Item} (h : it.Shaped) : Text.All isTrivia it.before := by
  cases it with
  | leaf n =>
    cases n with
    | comment before body => exact h.1
    | declaration d => exact Declaration.Shaped.before h
    | statement before hd semicolon => exact h.1
    | block before hd children after => exact h.elim
  | opening before hd => cases hd <;> exact h.1
  | closing before => exact h
  | finish before => exact h

/-- The text of an item starts after the trivia. -/
theorem Item.clear_core {it : Item} (h : it.Shaped) (ht : it.takesText) (k : Text) :
    Text.Clear isTrivia (it.core ++ k) := by
  cases it with
  | leaf n =>
    cases n with
    | comment before body => simp [Item.core, isTrivia, isGap]
    | declaration d =>
      obtain ⟨lead, tail, -, -, hb, -⟩ := Declaration.Shaped.between h
      have hne : d.property ++ d.between ≠ [] := by simp [hb]
      have := (Declaration.Shaped.front h).append hne
      simpa [Item.core] using this _
    | statement before hd semicolon => simp [Item.core, AtHead.text, isTrivia, isGap]
    | block before hd children after => exact h.elim
  | opening before hd =>
    cases hd with
    | rule selector between =>
      have : Text.Clear isTrivia ('{' :: k) := by simp [isTrivia, isGap]
      simpa [Item.core, Head.text] using Text.clear_append h.2.front this
    | atRule hd => simp [Item.core, Head.text, AtHead.text, isTrivia, isGap]
  | closing before => simp [Item.core, isTrivia, isGap]
  | finish before => cases ht

/-- Where the rest of a span starts, white space has ended. -/
theorem clear_isGap_of_span {s t r : Text} (h : span s = .ok (t, r)) : Text.Clear isGap r := by
  intro c hc
  have hstop : isStop c = true := by simpa using clear_of_spanFrom h c hc
  rcases isStop_iff.1 hstop with rfl | rfl | rfl <;> rfl

/-- What a span takes up beyond a raw text stands at the front of the text after it. -/
theorem eq_append_of_span {raw g k r : Text} (h : span (raw ++ k) = .ok (raw ++ g, r)) :
    k = g ++ r := by
  have happ := span_append h
  rw [List.append_assoc] at happ
  exact (List.append_cancel_left happ).symm

/-- A raw text ends in front of `k` if a span takes up the raw text and white space there, and no
block begins after it. -/
theorem endsBefore_iff {raw k : Text} :
    EndsBefore raw k ↔
      ∃ g r, Text.All isGap g ∧ span (raw ++ k) = .ok (raw ++ g, r) ∧ r.head? ≠ some '{' := by
  unfold EndsBefore
  constructor
  · intro h
    have hk := Text.leading_append_trimStart isGap k
    split at h
    · rename_i hr
      rw [hr, List.append_nil] at hk
      exact ⟨k, [], hk ▸ Text.all_leading isGap k, h, by simp⟩
    · rename_i c r hr
      rw [hr] at hk
      have hc : isStop c = true := isStop_iff.2 (h.1.imp_right .inr)
      have hspan := (span_eq_ok_stop_iff (k := r) hc).2 h.2
      rw [List.append_assoc, hk] at hspan
      refine ⟨_, _, Text.all_leading isGap k, hspan, ?_⟩
      rcases h.1 with rfl | rfl <;> simp
  · rintro ⟨g, r, hg, hspan, hbrace⟩
    have hclear := clear_isGap_of_span hspan
    have hk : k = g ++ r := eq_append_of_span hspan
    have hrest : Text.trimStart isGap k = r := by
      rw [hk, Text.trimStart_of_all hg, Text.trimStart_of_clear hclear]
    cases r with
    | nil =>
      rw [hrest]
      simpa [hk] using hspan
    | cons c r =>
      have hc : isStop c = true := by simpa using clear_of_spanFrom hspan c
      have hlead : Text.leading isGap k = g := by
        rw [hk, Text.leading_of_all hg, Text.leading_of_clear hclear, List.append_nil]
      rw [hrest, hlead]
      refine ⟨?_, (span_eq_ok_stop_iff (k := r) hc).1 ?_⟩
      · rcases isStop_iff.1 hc with rfl | rfl | rfl <;> simp_all
      · rw [List.append_assoc, ← hk, hspan]

/-- If a span gives the parameters of a head, it takes up the head and white space. -/
theorem AtHead.exists_seam {h : AtHead} {name raw r k : Text} (hgaps : Text.All isGap h.afterName)
    (hparams : (AtHead.ofRaw name raw).params = h.params)
    (hspan : span (h.afterName ++ (h.params ++ k)) = .ok (raw, r)) :
    Text.Trimmed isGap h.params ∧
      ∃ g, Text.All isGap g ∧ raw = h.afterName ++ (h.params ++ g) ∧ k = g ++ r := by
  rw [AtHead.ofRaw_params] at hparams
  have htrim : Text.Trimmed isGap h.params := hparams ▸ Text.trimmed_trim isGap raw
  obtain ⟨a, b, ha, hb, hraw⟩ := Text.exists_trim isGap raw
  rw [hparams] at hraw
  have happ := span_append hspan
  rw [hraw] at happ
  obtain ⟨g, hg, hseam, hk⟩ :=
    Text.exists_seam ha hb hgaps htrim (clear_isGap_of_span hspan) happ
  exact ⟨htrim, g, hg, by rw [hraw, hseam], hk⟩

/-- A head whose parameters are trimmed is found again in its text. -/
theorem AtHead.ofRaw_append {h : AtHead} {g : Text} (hgaps : Text.All isGap h.afterName)
    (hg : Text.All isGap g) (htrim : Text.Trimmed isGap h.params) (name : Text) :
    (AtHead.ofRaw name (h.afterName ++ (h.params ++ g))).params = h.params := by
  rw [AtHead.ofRaw_params, htrim.trim_eq hgaps hg]

/-- What is left after an item may lack some of the trivia in front of the next one. -/
theorem trimStart_isTrivia_of_gaps {g r : Text} (hg : Text.All isGap g) :
    Text.trimStart isTrivia (g ++ r) = Text.trimStart isTrivia r :=
  Text.trimStart_of_all (Text.all_isTrivia_of_all_isGap hg) r

theorem trimStart_isTrivia_semicolon {g r : Text} (hg : Text.All isGap g) :
    Text.trimStart isTrivia (g ++ ';' :: r) = Text.trimStart isTrivia r := by
  rw [trimStart_isTrivia_of_gaps hg]
  rfl

theorem clear_isGap_of_isStop {c : Char} (hc : isStop c = true) (k : Text) :
    Text.Clear isGap (c :: k) := by
  rcases isStop_iff.1 hc with rfl | rfl | rfl <;> simp [isGap]

namespace AtHead

variable {h : AtHead} {k r : Text}

theorem eq_of_bare {name raw : Text} (heq : (AtHead.ofRaw name raw).bare = h.bare) :
    name = h.name ∧ (AtHead.ofRaw name raw).params = h.params := by
  rw [AtHead.bare, AtHead.bare, AtHead.ofRaw_name, AtHead.mk.injEq] at heq
  exact ⟨heq.1, heq.2.1⟩

theorem rest_of_atName {rest name x : Text} (hname : atName? (h.name ++ rest) = some (name, x))
    (heq : name = h.name) : x = rest := by
  have happ := atName?_append hname
  rw [heq] at happ
  exact List.append_cancel_left happ

/-- If the head of an at-rule that a stop character ends is found again, its text is closed. -/
theorem closed_of_found {c : Char} (hc : isStop c = true) {name raw x : Text} (hs : h.Shaped)
    (hname : atName? (h.name ++ (h.afterName ++ (h.params ++ (h.between ++ c :: k)))) =
      some (name, x)) (hspan : span x = .ok (raw, r))
    (heq : (AtHead.ofRaw name raw).bare = h.bare) :
    r = c :: k ∧ Text.Trimmed isGap h.params ∧
      Closed (h.afterName ++ (h.params ++ h.between)) := by
  obtain ⟨hn, hparams⟩ := eq_of_bare heq
  rw [rest_of_atName hname hn] at hspan
  obtain ⟨htrim, g, hg, rfl, hk⟩ := exists_seam hs.afterName hparams hspan
  obtain ⟨rfl, rfl⟩ := Text.append_cancel hs.between hg (clear_isGap_of_isStop hc k)
    (clear_isGap_of_span hspan) hk
  refine ⟨rfl, htrim, (span_eq_ok_stop_iff (k := k) hc).1 ?_⟩
  simpa using hspan

/-- If the head of an at-rule without a semicolon is found again, it ends in front of what
follows. -/
theorem endsBefore_of_found {name raw x : Text} (hs : h.Shaped)
    (hname : atName? (h.name ++ (h.afterName ++ (h.params ++ k))) = some (name, x))
    (hspan : span x = .ok (raw, r)) (hbrace : r.head? ≠ some '{')
    (heq : (AtHead.ofRaw name raw).bare = h.bare) :
    Text.Trimmed isGap h.params ∧ Text.Clear isNameMore (h.afterName ++ (h.params ++ k)) ∧
      EndsBefore (h.afterName ++ h.params) k ∧ ∃ g, Text.All isGap g ∧ k = g ++ r := by
  obtain ⟨hn, hparams⟩ := eq_of_bare heq
  have hx := rest_of_atName hname hn
  have hclear := (atName?_self hname).2
  rw [hx] at hspan hclear
  obtain ⟨htrim, g, hg, rfl, hk⟩ := exists_seam hs.afterName hparams hspan
  exact ⟨htrim, hclear, endsBefore_iff.2 ⟨g, r, hg, by simpa using hspan, hbrace⟩, g, hg, hk⟩

/-- A head whose text is closed is found again in front of a stop character. -/
theorem found_of_closed {c : Char} (hc : isStop c = true) (hs : h.Shaped)
    (htrim : Text.Trimmed isGap h.params)
    (hclosed : Closed (h.afterName ++ (h.params ++ h.between))) (k : Text) :
    ∃ x raw, atName? (h.name ++ (h.afterName ++ (h.params ++ (h.between ++ c :: k)))) =
        some (h.name, x) ∧ span x = .ok (raw, c :: k) ∧
      (AtHead.ofRaw h.name raw).bare = h.bare := by
  have hclear : Text.Clear isNameMore (c :: k) := by
    rcases isStop_iff.1 hc with rfl | rfl | rfl <;> rw [Text.clear_cons] <;> decide
  refine ⟨_, h.afterName ++ (h.params ++ h.between), atName?_append_clear hs.name ?_, ?_, ?_⟩
  · simpa using Text.clear_append hs.boundary hclear
  · have := (span_eq_ok_stop_iff (k := k) hc).2 hclosed
    simpa using this
  · rw [AtHead.bare, AtHead.bare, AtHead.ofRaw_name, ofRaw_append hs.afterName hs.between htrim]

/-- A head that ends in front of what follows is found again there. -/
theorem found_of_endsBefore (hs : h.Shaped) (htrim : Text.Trimmed isGap h.params)
    (hclear : Text.Clear isNameMore (h.afterName ++ (h.params ++ k)))
    (hends : EndsBefore (h.afterName ++ h.params) k) :
    ∃ x raw g r, atName? (h.name ++ (h.afterName ++ (h.params ++ k))) = some (h.name, x) ∧
      span x = .ok (raw, r) ∧ r.head? ≠ some '{' ∧ Text.All isGap g ∧ k = g ++ r ∧
      (AtHead.ofRaw h.name raw).bare = h.bare := by
  obtain ⟨g, r, hg, hspan, hbrace⟩ := endsBefore_iff.1 hends
  have hk : k = g ++ r := eq_append_of_span hspan
  refine ⟨_, h.afterName ++ (h.params ++ g), g, r, atName?_append_clear hs.name hclear, ?_,
    hbrace, hg, hk, ?_⟩
  · simpa using hspan
  · rw [AtHead.bare, AtHead.bare, AtHead.ofRaw_name, ofRaw_append hs.afterName hg htrim]

end AtHead

namespace Declaration

variable {d : Declaration} {k r : Text}

/-- If a declaration is found again, its span takes up the declaration and white space. -/
theorem exists_seam {raw front back : Text} (hs : d.Shaped) (before : Text)
    (hspan : span (d.property ++ (d.between ++ (d.value ++ k))) = .ok (raw, r))
    (hcolon : cutColon none false raw = some (front, back))
    (heq : (Declaration.ofRaw before front back).bare = d.bare) :
    Text.Trimmed isGap d.value ∧ ∃ g, Text.All isGap g ∧
      raw = d.property ++ (d.between ++ (d.value ++ g)) ∧ k = g ++ r := by
  simp only [Declaration.bare, Declaration.ofRaw, Declaration.mk.injEq, and_true] at heq
  obtain ⟨hproperty, hvalue⟩ := heq
  obtain ⟨lead, tail, hlead, htail, hbetween, -⟩ := hs.between
  have htrim : Text.Trimmed isGap d.value := hvalue ▸ Text.trimmed_trim isGap back
  have happ := span_append hspan
  have hfront := Text.trimEnd_append_trailing isGap front
  rw [hproperty] at hfront
  obtain ⟨a, b, ha, hb, hback⟩ := Text.exists_trim isGap back
  change Text.trim isGap back = d.value at hvalue
  rw [hvalue] at hback
  rw [← cutColon_append hcolon, ← hfront, hback, hbetween] at happ
  simp only [List.append_assoc, List.cons_append, List.append_cancel_left_eq] at happ
  -- the white space in front of the colon, then that in front of the value
  obtain ⟨htrailing, hrest⟩ := Text.append_cancel (Text.all_trailing isGap front) hlead
    (by simp [isGap]) (by simp [isGap]) happ
  have hrest' : a ++ (d.value ++ b) ++ r = tail ++ (d.value ++ k) := by
    simpa using hrest
  obtain ⟨g, hg, hseam, hk⟩ :=
    Text.exists_seam ha hb htail htrim (clear_isGap_of_span hspan) hrest'
  refine ⟨htrim, g, hg, ?_, hk⟩
  rw [← cutColon_append hcolon, ← hfront, hback, hseam, htrailing, hbetween]
  simp

/-- A declaration whose span takes up white space after it is found again. -/
theorem found_of_span {g : Text} (hs : d.Shaped) (htrim : Text.Trimmed isGap d.value)
    (hg : Text.All isGap g) (before : Text) :
    ∃ front back, cutColon none false (d.property ++ (d.between ++ (d.value ++ g))) =
        some (front, back) ∧ (Declaration.ofRaw before front back).bare = d.bare ∧
      Text.All isGap (Declaration.ofRaw before front back).trailing := by
  obtain ⟨lead, tail, hlead, htail, hbetween, hcolon⟩ := hs.between
  refine ⟨d.property ++ lead, tail ++ (d.value ++ g), ?_, ?_, Text.all_trailing isGap _⟩
  · rw [hbetween]
    simpa using hcolon (tail ++ (d.value ++ g))
  · have hproperty : Text.trimEnd isGap (d.property ++ lead) = d.property := by
      rw [Text.trimEnd_append_of_all _ hlead, hs.property]
    have hvalue : Text.trim isGap (tail ++ (d.value ++ g)) = d.value := htrim.trim_eq htail hg
    simp only [Declaration.bare, Declaration.ofRaw, Declaration.mk.injEq, and_true]
    exact ⟨hproperty, hvalue⟩

end Declaration

end StyleSplice
