import StyleSplice.Proofs.Resolve.Conservation

/-!
# Pages are written in verbatim

In a run that does not go on into pages, an import without conditions makes room for the text of its
page as it was fetched. Only the character sets of the page go, with the trivia in front of them, and
the trivia in front of what is left and at the end; the trivia in front of the import stay. Nothing
else in the sheet changes, at any depth, so the result can be written down item by item.
-/

namespace StyleSplice

/-- The text of a node behind the text in front of it. -/
def Node.ownText (n : Node) : Text := (n.withBefore []).text

theorem Node.text_withBefore (before : Text) (n : Node) :
    (n.withBefore before).text = before ++ n.ownText := by
  cases n <;> simp [ownText, withBefore, text, Declaration.text]

/-- What is written in the place of an import with the given text in front of it: the page without
its character sets, the trivia in front of the first node that is left, and the trivia at its end. -/
def Sheet.inlined (page : Sheet) (before : Text) : Text :=
  match page.children.filter fun m => !Run.isCharset m with
  | [] => []
  | m :: ms => before ++ m.ownText ++ Node.textOf ms

/-- An import and the page that takes its place. -/
structure Inlay where
  directive : Import
  url : Text
  page : Sheet

namespace Setup

/-- The page that takes the place of a node, if one does. -/
def inlay? (s : Setup) (c : Context) (n : Node) : Option Inlay :=
  match Plan.ofNode s c n with
  | .ok (.fetch d url) => (s.page? url).map fun page => ⟨d, url, page⟩
  | _ => none

/-- What is written in the place of an item. -/
def writes (s : Setup) (c : Context) : Item → Text
  | .leaf n =>
    match s.inlay? c n with
    | some i => i.page.inlined n.before
    | none => n.text
  | it => it.text

/-- What is told of a node whose place a page takes. -/
def tells (s : Setup) (c : Context) (n : Node) : Option Event :=
  (s.inlay? c n).map fun i => .resolved i.url c.depth i.directive.media

/-- No import that makes room for a page has conditions. -/
def Unconditional (s : Setup) (c : Context) (ns : List Node) : Prop :=
  ∀ n ∈ Node.walkAll ns, ∀ i ∈ s.inlay? c n, i.directive.hasConditions = false

end Setup

theorem Import.wrap_of_unconditional {d : Import} (h : d.hasConditions = false) (ns : List Node) :
    d.wrap ns = ns := by
  have hd : d.media = [] ∧ d.layer = none ∧ d.supports = none := by
    simpa [hasConditions, and_assoc] using h
  have hwrappers : d.wrappers = [] := by
    obtain ⟨hm, hl, hs⟩ := hd
    simp [wrappers, hm, hl, hs, Text.trim, Text.trimStart, Text.trimEnd]
  rw [wrap, hwrappers, List.foldl_nil]

/-- The text of what takes the place of an import without conditions. -/
theorem Run.textOf_replacement {d : Import} (h : d.hasConditions = false) (n : Node) (page : Sheet) :
    Node.textOf (replacement d n page.children) = page.inlined n.before := by
  rw [replacement, d.wrap_of_unconditional h, Sheet.inlined]
  cases page.children.filter fun m => !isCharset m with
  | nil => simp [Node.leadWith]
  | cons m ms => simp [Node.leadWith, Node.text_withBefore]

/-- A fault in the place of the content of a page means that there is no page. -/
theorem Setup.page?_of_fault {s : Setup} {url : Text} {f : Fault}
    (h : s.content url = .ok (.error f)) : s.page? url = none := by
  unfold content at h
  unfold page?
  split at h
  · rename_i ha
    rw [ha]
  · cases h
  · cases h
  · rename_i text ha
    rw [ha]
    dsimp only
    split at h
    · rename_i hp
      rw [hp]
      rfl
    · split at h
      · split at h <;> cases h
      · cases h

/-- What a page was read from. -/
theorem Setup.answer_of_page? {s : Setup} {url : Text} {page : Sheet} (h : s.page? url = some page) :
    s.network.answer url = .body page.text := by
  unfold page? at h
  split at h
  · rename_i text ha
    cases hp : Sheet.parse text (some url) with
    | error f =>
      rw [hp] at h
      cases h
    | ok p =>
      rw [hp] at h
      cases h
      rw [ha, Sheet.text_of_reads (parse_eq_ok_iff.1 hp).2]
  · cases h

/-- What a pass over nodes leaves is written down item by item, and it tells of each page in its
place. -/
structure Yield.Writes (s : Setup) (c : Context) (ms : List Node) (y : Yield) : Prop where
  text : Node.textOf y.nodes = (Node.itemsOf ms).flatMap (s.writes c)
  told : (y.events.filter fun e => e.kind == .resolved) = (Node.walkAll ms).filterMap (s.tells c)

namespace OnePass

variable {s : Setup} {enter : Context → List Node → Except Halt Yield} {c : Context} {y : Yield}
  {n : Node} {ms : List Node}

/-- A page that the pass does not go on into is left as it is. -/
theorem visit_of_flat {url : Text} {children : List Node} (hc : c.canDescend = false)
    (h : visit s enter c url children = .ok y) :
    y.nodes = children ∧ ∀ e ∈ y.events, e.kind ≠ .resolved := by
  unfold visit at h
  dsimp only at h
  rw [if_neg (by simp [hc])] at h
  split at h
  · cases h
  · rename_i z hz
    cases h
    exact ⟨rfl, fun e => remarks_kind hz e⟩

theorem writes_leaf (hc : c.canDescend = false) (hoff : s.options.anchorReferences = false)
    (hn : n.items = [.leaf n]) (hplain : s.Unconditional c [n])
    (h : node s enter c n = .ok y) : y.Writes s c [n] := by
  have hwalk : Node.walkAll [n] = [n] := by simp [Node.walk_of_leaf hn]
  have hnone : s.inlay? c n = none → y.nodes = [n] → (∀ e ∈ y.events, e.kind ≠ .resolved) →
      y.Writes s c [n] := by
    intro hi hnodes hevents
    refine ⟨by simp [hnodes, hn, Setup.writes, hi], ?_⟩
    have hfilter : (y.events.filter fun e => e.kind == .resolved) = [] :=
      List.filter_eq_nil_iff.2 fun e he => by simpa using hevents e he
    rw [hfilter, hwalk]
    simp [Setup.tells, hi]
  rw [node_of_leaf hn] at h
  split at h
  · cases h
  · rename_i d url hplan
    unfold replace at h
    split at h
    · cases h
    · rename_i f hcontent
      cases h
      refine hnone ?_ rfl (by simp [Yield.skipped, Event.kind])
      rw [Setup.inlay?, hplan]
      simp [Setup.page?_of_fault hcontent]
    · rename_i children hcontent
      obtain ⟨z, hz, rfl⟩ := map_eq_ok_iff.1 h
      obtain ⟨page, hpage, rfl⟩ := Setup.content_of_off hoff hcontent
      obtain ⟨hnodes, hevents⟩ := visit_of_flat hc hz
      have hi : s.inlay? c n = some ⟨d, url, page⟩ := by
        rw [Setup.inlay?, hplan]
        simp [hpage]
      have hd : d.hasConditions = false := hplain n (by simp [hwalk]) _ hi
      have hfilter : (z.events.filter fun e => e.kind == .resolved) = [] :=
        List.filter_eq_nil_iff.2 fun e he => by simpa using hevents e he
      refine ⟨?_, ?_⟩
      · simp only [hnodes, Run.textOf_replacement hd]
        simp [hn, Setup.writes, hi]
      · rw [List.filter_append, hfilter, hwalk]
        simp [Setup.tells, hi, Event.kind]
  · rename_i plan hfetch hplan
    cases h
    refine hnone ?_ rfl ?_
    · rw [Setup.inlay?, hplan]
      cases plan with
      | fetch d url => exact absurd rfl (hfetch d url)
      | _ => rfl
    · cases plan with
      | fetch d url => exact absurd rfl (hfetch d url)
      | _ => simp [Plan.early, Yield.skipped, Event.kind]

theorem writes_nodes (hnode : ∀ n ∈ ms, ∀ y, node s enter c n = .ok y → y.Writes s c [n])
    (h : nodes s enter c ms = .ok y) : y.Writes s c ms := by
  induction ms generalizing y with
  | nil =>
    rw [nodes] at h
    cases h
    exact ⟨rfl, rfl⟩
  | cons n ms ih =>
    obtain ⟨y₁, y₂, h₁, h₂, rfl⟩ := nodes_eq_ok_cons h
    have hfirst := hnode n (by simp) y₁ h₁
    have hrest := ih (fun m hm => hnode m (by simp [hm])) h₂
    refine ⟨?_, ?_⟩
    · have := hfirst.text
      simp_all [Yield.append, hrest.text]
    · have := hfirst.told
      simp_all [Yield.append, hrest.told]

/-- A block is written down as its opening, its children and its closing. -/
theorem writes_node (hc : c.canDescend = false) (hoff : s.options.anchorReferences = false)
    (hplain : s.Unconditional c [n]) (h : node s enter c n = .ok y) : y.Writes s c [n] := by
  induction n using Node.induction generalizing y with
  | leaf n hn => exact writes_leaf hc hoff hn hplain h
  | block before hd children after ih =>
    rw [node_block] at h
    obtain ⟨z, hz, rfl⟩ := map_eq_ok_iff.1 h
    have hinner : z.Writes s c children := by
      refine writes_nodes (fun m hm y => ih m hm fun k hk => hplain k ?_) hz
      have hwalk : k ∈ Node.walkAll children :=
        Node.mem_walkAll.2 ⟨m, hm, by simpa using hk⟩
      simp [Node.walk, hwalk]
    refine ⟨?_, ?_⟩
    · simp [Node.text, Item.text, Setup.writes, hinner.text]
    · have htells : s.tells c (.block before hd children after) = none := rfl
      simp [Node.walk, htells, hinner.told]

theorem writes_inline (hc : c.canDescend = false) (hoff : s.options.anchorReferences = false)
    (hplain : s.Unconditional c ms) {fuel : Nat} (h : inline s fuel c ms = .ok y) :
    y.Writes s c ms := by
  cases fuel with
  | zero => cases h
  | succ fuel =>
    rw [inline] at h
    refine writes_nodes (fun n hn y => writes_node hc hoff fun k hk => hplain k ?_) h
    exact Node.mem_walkAll.2 ⟨n, hn, by simpa using hk⟩

end OnePass

/-- A run that returns and does not go on into pages writes down the items of the sheet one after the
other, with the text of the page in the place of every import that it replaces, if these have no
conditions. It tells of each of them, and of nothing else that was replaced, and what a page is was
read from all of the text that was fetched. -/
theorem resolve_inlines_verbatim {s : Setup} {source : Text} {origin : Option Text} {sheet : Sheet}
    {edits : List Edit} (hparse : Sheet.parse source origin = .ok sheet)
    (hflat : s.options.recursive = false) (hoff : s.options.anchorReferences = false)
    (hplain : s.Unconditional (.atStart s.options sheet.origin) sheet.children)
    (h : (sheet.resolve s).edits = .ok edits) :
    let c := Context.atStart s.options sheet.origin
    source = sheet.items.flatMap Item.text ∧
      (sheet.edited edits).text = sheet.items.flatMap (s.writes c) ∧
      ((Node.walkAll sheet.children).filterMap (s.tells c)).Perm
        ((sheet.resolve s).progress.trace.filter fun e => e.kind == .resolved) ∧
      ∀ n i, s.inlay? c n = some i → s.network.answer i.url = .body i.page.text := by
  intro c
  obtain ⟨y, hy, hnodes, -, hadd⟩ :=
    Run.adds_edits (Nat.le_refl _) (Ledger.honest_empty _) (Sheet.ends_of_resolve h)
  have hc : c.canDescend = false := by simp [c, Context.canDescend, Context.atStart, hflat]
  have hwrites : y.Writes s c sheet.children := OnePass.writes_inline hc hoff hplain hy
  refine ⟨?_, ?_, ?_, ?_⟩
  · calc
      source = sheet.text := (Sheet.text_of_reads (parse_eq_ok_iff.1 hparse).2).symm
      _ = sheet.items.flatMap Item.text := sheet.textOf_items.symm
  · rw [Sheet.text, Sheet.edited, hnodes, hwrites.text, Sheet.items, List.flatMap_append]
    simp [Setup.writes, Item.text]
  · rw [← hwrites.told]
    exact hadd.told
  · intro n i hi
    unfold Setup.inlay? at hi
    split at hi
    · obtain ⟨page, hpage, rfl⟩ := Option.map_eq_some_iff.1 hi
      exact Setup.answer_of_page? hpage
    · cases hi

/-- A page between a comment and a declaration, two blocks deep, with a character set in front and
one with a block inside, and a page of which nothing is left. -/
theorem resolve_inlines_verbatim_nested :
    let source := ("@import 'https://h/b.css' ;@media x\x7b a \x7b/* */ @import\n'https://h/a.css';" ++
      "b:c\x7d\x7d ").toList
    let pages : List (Text × Page) :=
      [("https://h/a.css".toList, .body (" @charset 'x';;\n/*p*/ @CHARSET \x7by:z\x7d" ++
          " @import 'c.css' print ;q:r ; ").toList),
        ("https://h/b.css".toList, .body " @charset 'x' ; ".toList)]
    let s : Setup := { options := { recursive := false }, network := .ofPages [] pages }
    ∃ sheet edits, Sheet.parse source = .ok sheet ∧ (sheet.resolve s).edits = .ok edits ∧
      s.Unconditional (.atStart s.options none) sheet.children ∧
      (sheet.edited edits).text =
        "@media x\x7b a \x7b/* */ /*p*/ @import 'c.css' print ;q:r ;b:c\x7d\x7d ".toList := by
  intro source pages s
  let first : Node :=
    .statement [] ⟨"import".toList, "'https://h/b.css'".toList, [' '], [' ']⟩ true
  let second : Node :=
    .statement [' '] ⟨"import".toList, "'https://h/a.css'".toList, ['\n'], []⟩ true
  let inner : Node := .block [' '] (.rule ['a'] [' '])
    [.comment [] [' '], second, .declaration ⟨['b'], ['c'], [], [':'], [], false⟩] []
  let sheet : Sheet :=
    ⟨[first, .block [] (.atRule ⟨"media".toList, ['x'], [' '], []⟩) [inner] []], [' '], none⟩
  have hparse : Sheet.parse source = .ok sheet :=
    parse_eq_ok_iff.2 ⟨rfl, .cons rfl (.cons rfl (.cons rfl (.cons rfl (.cons rfl (.cons rfl
      (.cons rfl (.cons rfl (.cons rfl (.nil _)))))))))⟩
  obtain ⟨edits, h⟩ : ∃ edits, (sheet.resolve s).edits = .ok edits :=
    exists_eq_ok_iff.2 (by decide +kernel)
  have hplain : s.Unconditional (.atStart s.options none) sheet.children := by
    have hall : ∀ n ∈ Node.walkAll sheet.children,
        ((s.inlay? (.atStart s.options none) n).map fun i => i.directive.hasConditions) ≠
          some true := by decide +kernel
    intro n hn i hi
    have := hall n hn
    simpa [Option.mem_def.1 hi] using this
  have htext := (resolve_inlines_verbatim hparse rfl rfl hplain h).2.1
  refine ⟨sheet, edits, hparse, h, hplain, htext.trans ?_⟩
  decide +kernel

end StyleSplice
