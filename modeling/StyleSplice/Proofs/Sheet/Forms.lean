import StyleSplice.Sheet.Parser

/-!
# The forms of an item

What the reader can find at the front of a text, said once: nine forms, each with the span that it
takes up and the text that it leaves. Everything else about reading is derived from these.
-/

namespace StyleSplice

/-- Whether a text starts like a selector or a property. -/
def startsPlain : Text → Bool
  | [] => false
  | '}' :: _ => false
  | '/' :: '*' :: _ => false
  | '@' :: _ => false
  | _ => true

/-- The forms of the item at the front of a text without trivia, and the text after it. -/
inductive ItemForm (before : Text) : Text → Item → Text → Prop
  | finish : ItemForm before [] (.finish before) []
  | closing (r : Text) : ItemForm before ('}' :: r) (.closing before) r
  | comment {s body r : Text} (body_eq : commentBody? s = some (body, r)) :
    ItemForm before ('/' :: '*' :: s) (.leaf (.comment before body)) r
  | atBlock {s name x raw r : Text} (name_eq : atName? s = some (name, x))
      (span_eq : span x = .ok (raw, '{' :: r)) :
    ItemForm before ('@' :: s) (.opening before (.atRule (.ofRaw name raw))) r
  | statement {s name x raw r : Text} (name_eq : atName? s = some (name, x))
      (span_eq : span x = .ok (raw, ';' :: r)) :
    ItemForm before ('@' :: s) (.leaf (.statement before (.ofRaw name raw) true)) r
  | openStatement {s name x raw r : Text} (name_eq : atName? s = some (name, x))
      (span_eq : span x = .ok (raw, r)) (brace : r.head? ≠ some '{') (semi : r.head? ≠ some ';') :
    ItemForm before ('@' :: s)
      (.leaf (.statement before { AtHead.ofRaw name raw with between := [] } false))
      ((AtHead.ofRaw name raw).between ++ r)
  | rule {s raw r : Text} (plain : startsPlain s) (span_eq : span s = .ok (raw, '{' :: r)) :
    ItemForm before s
      (.opening before (.rule (Text.trimEnd isGap raw) (Text.trailing isGap raw))) r
  | declaration {s raw front back r : Text} (plain : startsPlain s)
      (span_eq : span s = .ok (raw, ';' :: r))
      (colon : cutColon none false raw = some (front, back)) :
    ItemForm before s (.leaf (.declaration (.ofRaw before front back))) r
  | openDeclaration {s raw front back r : Text} (plain : startsPlain s)
      (span_eq : span s = .ok (raw, r)) (brace : r.head? ≠ some '{') (semi : r.head? ≠ some ';')
      (colon : cutColon none false raw = some (front, back)) :
    ItemForm before s
      (.leaf (.declaration
        { Declaration.ofRaw before front back with trailing := [], semicolon := false }))
      ((Declaration.ofRaw before front back).trailing ++ r)

theorem itemAfter_of_startsPlain {before s : Text} (h : startsPlain s) :
    itemAfter before s = match span s with
      | .error f => .error f
      | .ok (raw, stop) => plainItem before s raw stop := by
  unfold itemAfter
  split
  · simp [startsPlain] at h
  · simp [startsPlain] at h
  · simp [startsPlain] at h
  · simp [startsPlain] at h
  · rfl

/-- The item of an at-rule, whatever its span ends at. -/
theorem form_of_atRuleItem {before s name x raw stop r : Text} {it : Item}
    (hname : atName? s = some (name, x)) (hspan : span x = .ok (raw, stop))
    (h : atRuleItem before name raw stop = (it, r)) : ItemForm before ('@' :: s) it r := by
  unfold atRuleItem at h
  split at h
  · cases h
    exact .atBlock hname hspan
  · cases h
    exact .statement hname hspan
  · rename_i hbrace hsemi
    cases h
    refine .openStatement hname hspan (fun h => ?_) fun h => ?_
    · obtain ⟨r, rfl⟩ := List.head?_eq_some_iff.1 h
      exact hbrace r rfl
    · obtain ⟨r, rfl⟩ := List.head?_eq_some_iff.1 h
      exact hsemi r rfl

/-- The item that starts with a selector or a property. -/
theorem form_of_plainItem {before s raw stop r : Text} {it : Item} (hplain : startsPlain s)
    (hspan : span s = .ok (raw, stop)) (h : plainItem before s raw stop = .ok (it, r)) :
    ItemForm before s it r := by
  unfold plainItem at h
  split at h
  · cases h
    exact .rule hplain hspan
  · rename_i hbrace
    split at h
    · cases h
    · rename_i hcolon
      dsimp only at h
      split at h
      · cases h
        exact .declaration hplain hspan hcolon
      · rename_i hsemi
        cases h
        refine .openDeclaration hplain hspan (fun h => ?_) (fun h => ?_) hcolon
        · obtain ⟨r, rfl⟩ := List.head?_eq_some_iff.1 h
          exact hbrace r rfl
        · obtain ⟨r, rfl⟩ := List.head?_eq_some_iff.1 h
          exact hsemi r rfl

theorem form_of_itemAfter {before s r : Text} {it : Item} (h : itemAfter before s = .ok (it, r)) :
    ItemForm before s it r := by
  unfold itemAfter at h
  split at h
  · cases h
    exact .finish
  · cases h
    exact .closing _
  · split at h
    · cases h
    · rename_i hbody
      cases h
      exact .comment hbody
  · split at h
    · cases h
    · rename_i hname
      split at h
      · cases h
      · rename_i hspan
        exact form_of_atRuleItem hname hspan (Except.ok.inj h)
  · rename_i hnil hclosing hcomment hat
    have hplain : startsPlain s := by
      unfold startsPlain
      split <;> simp_all
    split at h
    · cases h
    · rename_i hspan
      exact form_of_plainItem hplain hspan h

theorem ItemForm.itemAfter_eq {before s r : Text} {it : Item} (h : ItemForm before s it r) :
    itemAfter before s = .ok (it, r) := by
  cases h with
  | finish => rfl
  | closing => rfl
  | comment hb => simp [itemAfter, hb]
  | atBlock hn hs => simp [itemAfter, hn, hs, atRuleItem]
  | statement hn hs => simp [itemAfter, hn, hs, atRuleItem]
  | openStatement hn hs hb hsemi =>
    simp only [itemAfter, hn, hs]
    unfold atRuleItem
    split <;> simp_all
  | rule hp hs =>
    rw [itemAfter_of_startsPlain hp, hs]
    simp [plainItem]
  | declaration hp hs hc =>
    rw [itemAfter_of_startsPlain hp, hs]
    simp [plainItem, hc]
  | openDeclaration hp hs hb hsemi hc =>
    rw [itemAfter_of_startsPlain hp, hs]
    simp only [plainItem, hc]
    split <;> simp_all
    split <;> simp_all

/-- What the item at the front of a text can be. -/
theorem itemAfter_eq_ok_iff {before s r : Text} {it : Item} :
    itemAfter before s = .ok (it, r) ↔ ItemForm before s it r :=
  ⟨form_of_itemAfter, ItemForm.itemAfter_eq⟩

theorem item_eq_ok_iff {s r : Text} {it : Item} :
    item s = .ok (it, r) ↔
      ItemForm (Text.leading isTrivia s) (Text.trimStart isTrivia s) it r := itemAfter_eq_ok_iff

end StyleSplice
