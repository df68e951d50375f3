import StyleSplice.Proofs.Sheet.Closed
import StyleSplice.Proofs.Sheet.Items

/-!
# The shape of what was read

What holds of every item that was read from a text, besides its parameters and values: the fields for
white space hold white space, and what stands in front of the parameters or the value is read again
in front of any others. Changes of parameters and values keep this shape.
-/

namespace StyleSplice

/-- The head of an at-rule: the text after its name does not go on with the name. -/
structure AtHead.Shaped (h : AtHead) : Prop where
  name : atName? h.name = some (h.name, [])
  boundary : Text.Clear isNameMore (h.afterName ++ (h.params ++ h.between))
  afterName : Text.All isGap h.afterName
  between : Text.All isGap h.between

/-- A declaration: the colon in front of the value is the first one, whatever the value is. -/
structure Declaration.Shaped (d : Declaration) : Prop where
  before : Text.All isTrivia d.before
  property : Text.trimEnd isGap d.property = d.property
  between : ∃ lead tail, Text.All isGap lead ∧ Text.All isGap tail ∧
    d.between = lead ++ ':' :: tail ∧
    ∀ x, cutColon none false (d.property ++ lead ++ ':' :: x) = some (d.property ++ lead, x)
  starts : ∀ x, startsPlain (d.property ++ d.between ++ x) = true
  front : Text.Clear isTrivia (d.property ++ d.between)
  trailing : Text.All isGap d.trailing

/-- A selector and the text after it: they are the head of a block as they are. -/
structure RuleShaped (selector between : Text) : Prop where
  trimmed : Text.trimEnd isGap selector = selector
  gaps : Text.All isGap between
  closed : Closed (selector ++ between)
  starts : ∀ x, startsPlain (selector ++ between ++ '{' :: x) = true
  front : Text.Clear isTrivia (selector ++ between)

/-- The shape of an item. A block is no item of its own. -/
def Item.Shaped : Item → Prop
  | .leaf (.comment before body) =>
    Text.All isTrivia before ∧
      ∀ x, commentBody? (body ++ '*' :: '/' :: x) = some (body, x)
  | .leaf (.declaration d) => d.Shaped
  | .leaf (.statement before h semicolon) =>
    Text.All isTrivia before ∧ h.Shaped ∧ (semicolon = false → h.between = [])
  | .leaf (.block ..) => False
  | .opening before (.rule selector between) =>
    Text.All isTrivia before ∧ RuleShaped selector between
  | .opening before (.atRule h) => Text.All isTrivia before ∧ h.Shaped
  | .closing before => Text.All isTrivia before
  | .finish before => Text.All isTrivia before

/-- The shape of a list of nodes is that of their items. -/
def Node.AllShaped (ns : List Node) : Prop := ∀ it ∈ Node.itemsOf ns, it.Shaped

/-- How a text starts does not depend on what follows a character other than a slash. -/
theorem startsPlain_append {u v w : Text} {c : Char} (hc : c ≠ '/')
    (h : startsPlain (u ++ c :: v) = true) : startsPlain (u ++ c :: w) = true := by
  cases u with
  | nil =>
    unfold startsPlain at h ⊢
    split <;> simp_all
  | cons a u =>
    cases u with
    | nil =>
      unfold startsPlain at h ⊢
      split <;> simp_all
    | cons b u =>
      unfold startsPlain at h ⊢
      split <;> simp_all

theorem AtHead.ofRaw_params (name raw : Text) :
    (AtHead.ofRaw name raw).params = Text.trim isGap raw := by
  unfold AtHead.ofRaw
  by_cases h : Text.trim isGap raw = []
  · simp [h]
  · simp [h]

theorem AtHead.ofRaw_name (name raw : Text) : (AtHead.ofRaw name raw).name = name := by
  unfold AtHead.ofRaw
  by_cases h : Text.trim isGap raw = []
  · simp [h]
  · simp [h]

theorem AtHead.shaped_ofRaw {s name x raw r : Text} (hname : atName? s = some (name, x))
    (hspan : span x = .ok (raw, r)) : (AtHead.ofRaw name raw).Shaped := by
  obtain ⟨hself, hclear⟩ := atName?_self hname
  have htext := AtHead.text_ofRaw name raw
  rw [AtHead.text, AtHead.ofRaw_name] at htext
  have hraw : (AtHead.ofRaw name raw).afterName ++ (AtHead.ofRaw name raw).params ++
      (AtHead.ofRaw name raw).between = raw := by simpa using htext
  rw [← span_append hspan, ← hraw] at hclear
  have hgaps : Text.All isGap (AtHead.ofRaw name raw).afterName ∧
      Text.All isGap (AtHead.ofRaw name raw).between := by
    unfold AtHead.ofRaw
    by_cases h : Text.trim isGap raw = []
    · obtain ⟨a, b, ha, hb, hab⟩ := Text.exists_trim isGap raw
      rw [h] at hab
      have hall : Text.All isGap raw := by simp [hab, ha, hb]
      simp [h, hall]
    · simp [h, Text.all_leading, Text.all_trailing]
  exact
    { name := by rw [AtHead.ofRaw_name]; exact hself
      boundary := by simpa using hclear.of_append
      afterName := hgaps.1
      between := hgaps.2 }

theorem Text.all_isTrivia_of_all_isGap {s : Text} (h : Text.All isGap s) : Text.All isTrivia s :=
  fun c hc => by simp [isTrivia, h c hc]

theorem Declaration.shaped_ofRaw {before front back : Text} (hbefore : Text.All isTrivia before)
    (hcolon : cutColon none false (front ++ ':' :: back) = some (front, back))
    (hstarts : startsPlain (front ++ ':' :: back) = true)
    (hclear : Text.Clear isTrivia (front ++ ':' :: back)) :
    (Declaration.ofRaw before front back).Shaped where
  before := hbefore
  property := Text.trimEnd_trimEnd isGap front
  between := by
    refine ⟨Text.trailing isGap front, Text.leading isGap back, Text.all_trailing isGap front,
      Text.all_leading isGap back, rfl, fun x => ?_⟩
    change cutColon none false
      (Text.trimEnd isGap front ++ Text.trailing isGap front ++ ':' :: x) =
        some (Text.trimEnd isGap front ++ Text.trailing isGap front, x)
    rw [Text.trimEnd_append_trailing]
    exact cutColon_append_colon hcolon x
  starts x := by
    change startsPlain (Text.trimEnd isGap front ++ (Text.trailing isGap front ++
      ':' :: Text.leading isGap back) ++ x) = true
    rw [← List.append_assoc, Text.trimEnd_append_trailing, List.append_assoc, List.cons_append]
    exact startsPlain_append (by decide) hstarts
  front := by
    change Text.Clear isTrivia (Text.trimEnd isGap front ++ (Text.trailing isGap front ++
      ':' :: Text.leading isGap back))
    rw [← List.append_assoc, Text.trimEnd_append_trailing]
    cases front with
    | nil => simp [isTrivia, isGap]
    | cons c front => simpa using hclear
  trailing := Text.all_trailing isGap _

theorem Item.shaped_of_form {before u r : Text} {it : Item} (hbefore : Text.All isTrivia before)
    (hclear : Text.Clear isTrivia u) (h : ItemForm before u it r) : it.Shaped := by
  cases h with
  | finish => exact hbefore
  | closing r => exact hbefore
  | comment hb => exact ⟨hbefore, commentBody?_append_end hb⟩
  | atBlock hn hs => exact ⟨hbefore, AtHead.shaped_ofRaw hn hs⟩
  | statement hn hs => exact ⟨hbefore, AtHead.shaped_ofRaw hn hs, by simp⟩
  | openStatement hn hs =>
    have h := AtHead.shaped_ofRaw hn hs
    have hboundary := h.boundary
    rw [← List.append_assoc] at hboundary
    exact ⟨hbefore, ⟨h.name, by simpa using hboundary.of_append, h.afterName, by simp⟩, by simp⟩
  | rule hp hs =>
    have hu := span_append hs
    refine ⟨hbefore, Text.trimEnd_trimEnd isGap _, Text.all_trailing isGap _, ?_, fun x => ?_, ?_⟩
    · rw [Text.trimEnd_append_trailing]
      exact (span_eq_ok_stop_iff (c := '{') (by decide)).1 (by rw [hu]; exact hs)
    · rw [Text.trimEnd_append_trailing]
      rw [← hu] at hp
      exact startsPlain_append (by decide) hp
    · rw [Text.trimEnd_append_trailing]
      rw [← hu] at hclear
      exact hclear.of_append
  | declaration hp hs hc =>
    have hu := span_append hs
    rw [← cutColon_append hc] at hu
    refine Declaration.shaped_ofRaw hbefore (cutColon_append_colon hc _) ?_ ?_
    · rw [← hu] at hp
      rw [List.append_assoc, List.cons_append] at hp
      exact startsPlain_append (by decide) hp
    · rw [← hu] at hclear
      exact hclear.of_append
  | openDeclaration hp hs hb hsemi hc =>
    have hu := span_append hs
    rw [← cutColon_append hc] at hu
    have hd := Declaration.shaped_ofRaw hbefore (cutColon_append_colon hc _)
      (by
        rw [← hu, List.append_assoc, List.cons_append] at hp
        exact startsPlain_append (by decide) hp)
      (by
        rw [← hu] at hclear
        exact hclear.of_append)
    exact ⟨hd.before, hd.property, hd.between, hd.starts, hd.front, by simp⟩

/-- Every item that is read has its shape. -/
theorem Item.shaped_of_item {s r : Text} {it : Item} (h : item s = .ok (it, r)) : it.Shaped :=
  Item.shaped_of_form (Text.all_leading isTrivia s) (Text.clear_trimStart isTrivia s)
    (item_eq_ok_iff.1 h)

theorem Reads.shaped {s r : Text} {its : List Item} (h : Reads s its r) :
    ∀ it ∈ its, it.Shaped := by
  induction h with
  | nil => simp
  | cons first rest ih =>
    intro it hit
    rcases List.mem_cons.1 hit with rfl | hit
    · exact Item.shaped_of_item first
    · exact ih it hit

/-- Every tree that is read has its shape, up to the end of the text. -/
theorem Sheet.shaped_of_parse {source : Text} {origin : Option Text} {t : Sheet}
    (h : Sheet.parse source origin = .ok t) :
    Node.AllShaped t.children ∧ Text.All isTrivia t.after := by
  have hr := (parse_eq_ok_iff.1 h).2.shaped
  exact ⟨fun it hit => hr it (List.mem_append_left _ hit),
    hr (.finish t.after) (by simp [Sheet.items])⟩

end StyleSplice
