import StyleSplice.Sheet.Node
import StyleSplice.Sheet.Span
import StyleSplice.Text.Classes

/-!
# Reading a style sheet

A text is read item by item: a node without a block, the head of a block with its opening brace, a
closing brace, or the end. Every item but the last takes characters away, so the reading ends. The
blocks that are still open wait on a stack.
-/

namespace StyleSplice

/-- An item at the front of a text, after the trivia in front of it. -/
inductive Item
  | leaf (n : Node)
  | opening (before : Text) (head : Head)
  | closing (before : Text)
  | finish (before : Text)
deriving Repr

/-- The characters that a name may start with, after an optional hyphen. -/
def isNameStart (c : Char) : Bool := c.isAlpha || c == '_'

/-- The characters inside a name. -/
def isNameMore (c : Char) : Bool := isWord c || c == '-'

/-- The name of an at-rule at the front of a text, and the text after it. -/
def atName? : Text → Option (Text × Text)
  | '-' :: c :: r =>
    if isNameStart c then some ('-' :: c :: r.takeWhile isNameMore, r.dropWhile isNameMore)
    else none
  | c :: r =>
    if isNameStart c then some (c :: r.takeWhile isNameMore, r.dropWhile isNameMore) else none
  | [] => none

/-- The parts of a text before and after its first colon outside strings and comments. Here a
string ends at the next quote of its kind, whatever stands before that. -/
def cutColon : Option Char → Bool → Text → Option (Text × Text)
  | _, _, [] => none
  | some q, commented, c :: r =>
    if c = q then Text.consPart c (cutColon none commented r)
    else Text.consPart c (cutColon (some q) commented r)
  | none, true, '*' :: '/' :: r => Text.consPart '*' (Text.consPart '/' (cutColon none false r))
  | none, true, c :: r => Text.consPart c (cutColon none true r)
  | none, false, '/' :: '*' :: r => Text.consPart '/' (Text.consPart '*' (cutColon none true r))
  | none, false, c :: r =>
    if isQuote c then Text.consPart c (cutColon (some c) false r)
    else if c = ':' then some ([], r)
    else Text.consPart c (cutColon none false r)

/-- The at-rule head with the given name and raw text after it. -/
def AtHead.ofRaw (name raw : Text) : AtHead :=
  let params := Text.trim isGap raw
  if params.isEmpty then ⟨name, [], [], raw⟩
  else ⟨name, params, Text.leading isGap raw, Text.trailing isGap (Text.trimStart isGap raw)⟩

/-- Ends an at-rule at a stop character or at the end of the text. The blanks before a closing brace
or the end are left to the container. -/
def atRuleItem (before name raw : Text) : Text → Item × Text
  | '{' :: r => (.opening before (.atRule (.ofRaw name raw)), r)
  | ';' :: r => (.leaf (.statement before (.ofRaw name raw) true), r)
  | r =>
    let h := AtHead.ofRaw name raw
    (.leaf (.statement before { h with between := [] } false), h.between ++ r)

/-- The declaration with the given text before and after its colon. -/
def Declaration.ofRaw (before front back : Text) : Declaration :=
  let value := Text.trimStart isGap back
  { property := Text.trimEnd isGap front
    value := Text.trimEnd isGap value
    before
    between := Text.trailing isGap front ++ ':' :: Text.leading isGap back
    trailing := Text.trailing isGap value }

/-- The item that starts with a selector or a property: a block if an opening brace ends its span,
a declaration otherwise. -/
def plainItem (before s raw : Text) : Text → Except SheetFault (Item × Text)
  | '{' :: r =>
    .ok (.opening before (.rule (Text.trimEnd isGap raw) (Text.trailing isGap raw)), r)
  | stop =>
    match cutColon none false raw with
    | none => .error ⟨.unknownWord, s⟩
    | some (front, back) =>
      let d := Declaration.ofRaw before front back
      match stop with
      | ';' :: r => .ok (.leaf (.declaration d), r)
      | r =>
        .ok (.leaf (.declaration { d with trailing := [], semicolon := false }), d.trailing ++ r)

/-- The item at the front of a text that has no trivia in front. -/
def itemAfter (before : Text) (s : Text) : Except SheetFault (Item × Text) :=
  match s with
  | [] => .ok (.finish before, [])
  | '}' :: r => .ok (.closing before, r)
  | '/' :: '*' :: r =>
    match commentBody? r with
    | none => .error ⟨.unclosedComment, s⟩
    | some (body, r) => .ok (.leaf (.comment before body), r)
  | '@' :: r =>
    match atName? r with
    | none => .error ⟨.namelessAtRule, s⟩
    | some (name, r) =>
      match span r with
      | .error f => .error f
      | .ok (raw, stop) => .ok (atRuleItem before name raw stop)
  | s =>
    match span s with
    | .error f => .error f
    | .ok (raw, stop) => plainItem before s raw stop

/-- The item at the front of a text and the text after it. -/
def item (s : Text) : Except SheetFault (Item × Text) :=
  itemAfter (Text.leading isTrivia s) (Text.trimStart isTrivia s)

/-- The text that an item takes up. -/
def Item.text : Item → Text
  | .leaf n => n.text
  | .opening before h => before ++ h.text ++ ['{']
  | .closing before => before ++ ['}']
  | .finish before => before

theorem atName?_append {s name r : Text} (h : atName? s = some (name, r)) : name ++ r = s := by
  unfold atName? at h
  split at h
  all_goals try split at h
  all_goals
    simp only [Option.some.injEq, Prod.mk.injEq, reduceCtorEq] at h
  all_goals
    obtain ⟨rfl, rfl⟩ := h
    simp

theorem cutColon_append {quote : Option Char} {commented : Bool} {s front back : Text}
    (h : cutColon quote commented s = some (front, back)) : front ++ ':' :: back = s := by
  fun_induction cutColon quote commented s generalizing front back <;> grind

@[simp] theorem AtHead.text_ofRaw (name raw : Text) :
    (AtHead.ofRaw name raw).text = '@' :: name ++ raw := by
  unfold AtHead.ofRaw
  simp only
  split
  · simp [AtHead.text]
  · simp only [AtHead.text, List.append_assoc, List.cons_append, Text.trim,
      Text.trimEnd_append_trailing, Text.leading_append_trimStart]

/-- The parts of a declaration and the blanks between them make up its raw text. -/
theorem Declaration.ofRaw_append (before front back : Text) :
    let d := Declaration.ofRaw before front back
    d.property ++ (d.between ++ (d.value ++ d.trailing)) = front ++ ':' :: back := by
  have h := Text.trimEnd_append_trailing isGap front
  have h' := Text.leading_append_trimStart isGap back
  simp only [Declaration.ofRaw, Text.trimEnd_append_trailing, List.append_assoc, List.cons_append,
    h']
  rw [← List.append_assoc, h]

theorem atRuleItem_text (before name raw stop : Text) :
    (atRuleItem before name raw stop).1.text ++ (atRuleItem before name raw stop).2 =
      before ++ '@' :: name ++ raw ++ stop := by
  unfold atRuleItem
  split
  · simp [Item.text, Head.text]
  · simp [Item.text, Node.text]
  · have h := AtHead.text_ofRaw name raw
    simp only [AtHead.text] at h
    simp only [Item.text, Node.text, AtHead.text, Bool.false_eq_true, if_false, List.append_nil,
      List.append_assoc, List.cons_append] at h ⊢
    grind

theorem plainItem_text {before s raw stop r : Text} {it : Item}
    (h : plainItem before s raw stop = .ok (it, r)) : it.text ++ r = before ++ raw ++ stop := by
  unfold plainItem at h
  split at h
  · simp only [Except.ok.injEq, Prod.mk.injEq] at h
    obtain ⟨rfl, rfl⟩ := h
    simp [Item.text, Head.text, Text.trimEnd_append_trailing]
  · split at h
    · cases h
    · rename_i front back hc
      have hd := Declaration.ofRaw_append before front back
      have hc := cutColon_append hc
      simp only at h hd
      split at h
      all_goals
        simp only [Except.ok.injEq, Prod.mk.injEq] at h
        obtain ⟨rfl, rfl⟩ := h
        simp only [Item.text, Node.text, Declaration.text, Bool.false_eq_true, if_false]
        simp only [← hc, ← hd]
        simp [Declaration.ofRaw]

theorem itemAfter_text {before s r : Text} {it : Item} (h : itemAfter before s = .ok (it, r)) :
    it.text ++ r = before ++ s := by
  unfold itemAfter at h
  split at h
  · simp only [Except.ok.injEq, Prod.mk.injEq] at h
    obtain ⟨rfl, rfl⟩ := h
    simp [Item.text]
  · simp only [Except.ok.injEq, Prod.mk.injEq] at h
    obtain ⟨rfl, rfl⟩ := h
    simp [Item.text]
  · split at h
    · cases h
    · rename_i hb
      simp only [Except.ok.injEq, Prod.mk.injEq] at h
      obtain ⟨rfl, rfl⟩ := h
      simp [Item.text, Node.text, ← commentBody?_append hb]
  · split at h
    · cases h
    · rename_i name _ hn
      split at h
      · cases h
      · rename_i raw stop hs
        simp only [Except.ok.injEq] at h
        have ht := atRuleItem_text before name raw stop
        rw [h] at ht
        rw [ht, ← atName?_append hn, ← span_append hs]
        simp
  · split at h
    · cases h
    · rename_i hs
      rw [plainItem_text h, ← span_append hs]
      simp

/-- An item and the text after it make up the text. -/
theorem item_text {s r : Text} {it : Item} (h : item s = .ok (it, r)) : it.text ++ r = s := by
  rw [itemAfter_text h, Text.leading_append_trimStart]

/-- An item with a length: every item but the end of the text. -/
def Item.takesText : Item → Bool
  | .finish _ => false
  | _ => true

theorem plainItem_ne_nil {before s raw stop r : Text} {it : Item}
    (h : plainItem before s raw stop = .ok (it, r)) : it.text ≠ [] := by
  unfold plainItem at h
  split at h
  · simp only [Except.ok.injEq, Prod.mk.injEq] at h
    simp [← h.1, Item.text]
  · split at h
    · cases h
    · simp only at h
      split at h
      all_goals
        simp only [Except.ok.injEq, Prod.mk.injEq] at h
        simp [← h.1, Item.text, Node.text, Declaration.text, Declaration.ofRaw]

theorem itemAfter_ne_nil {before s r : Text} {it : Item} (h : itemAfter before s = .ok (it, r))
    (ht : it.takesText) : it.text ≠ [] := by
  unfold itemAfter at h
  split at h
  · simp only [Except.ok.injEq, Prod.mk.injEq] at h
    rw [← h.1] at ht
    cases ht
  · simp only [Except.ok.injEq, Prod.mk.injEq] at h
    simp [← h.1, Item.text]
  · split at h
    · cases h
    · simp only [Except.ok.injEq, Prod.mk.injEq] at h
      simp [← h.1, Item.text, Node.text]
  · split at h
    · cases h
    · split at h
      · cases h
      · rename_i raw stop _
        simp only [Except.ok.injEq] at h
        unfold atRuleItem at h
        split at h
        all_goals
          simp only [Prod.mk.injEq] at h
          simp [← h.1, Item.text, Node.text, Head.text, AtHead.text]
  · split at h
    · cases h
    · exact plainItem_ne_nil h

/-- Every item but the last takes characters away. -/
theorem length_lt_of_item {s r : Text} {it : Item} (h : item s = .ok (it, r))
    (ht : it.takesText) : r.length < s.length := by
  have h₁ := congrArg List.length (item_text h)
  have h₂ := List.length_pos_iff.2 (itemAfter_ne_nil h ht)
  simp only [List.length_append] at h₁
  omega

/-- A block whose end has not been read. -/
structure OpenBlock where
  before : Text
  head : Head
  /-- The text after the opening brace. -/
  inner : Text
  /-- The nodes in front of the block in the same container, last first. -/
  siblings : List Node

/-- Reads the rest of a text. `stack` holds the open blocks, innermost first, and `done` the nodes
read in the innermost one, last first. -/
def readNodes (stack : List OpenBlock) (done : List Node) (s : Text) :
    Except SheetFault (List Node × Text) :=
  match _h : item s with
  | .error f => .error f
  | .ok (.leaf n, r) => readNodes stack (n :: done) r
  | .ok (.opening before head, r) => readNodes (⟨before, head, r, done⟩ :: stack) [] r
  | .ok (.closing before, r) =>
    match stack with
    | [] => .error ⟨.unexpectedBrace, '}' :: r⟩
    | o :: stack =>
      readNodes stack (.block o.before o.head done.reverse before :: o.siblings) r
  | .ok (.finish before, _) =>
    match stack with
    | [] => .ok (done.reverse, before)
    | o :: _ => .error ⟨.unclosedBlock, '{' :: o.inner⟩
termination_by s.length
decreasing_by all_goals exact length_lt_of_item (by assumption) rfl

/-- Reads a style sheet that came from `origin`. -/
def Sheet.parse (source : Text) (origin : Option Text := none) : Except SheetFault Sheet :=
  match readNodes [] [] source with
  | .ok (children, after) => .ok ⟨children, after, origin⟩
  | .error f => .error f

end StyleSplice
