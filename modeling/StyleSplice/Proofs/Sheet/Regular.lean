import StyleSplice.Proofs.Sheet.Stays

/-!
# Items that are read as themselves

When an item, written down in front of some text, is read there as exactly the item that it is. Its
fields have to be the ones that the reader would fill in for its text, and the item has to end: at a
character of its own, after a head in which nothing is left open, or, if it lacks the semicolon, where
its container ends.
-/

namespace StyleSplice

/-- The raw text after the name of an at-rule. -/
def AtHead.raw (h : AtHead) : Text := h.afterName ++ (h.params ++ h.between)

/-- The raw text of a declaration, up to its semicolon. -/
def Declaration.raw (d : Declaration) : Text := d.property ++ (d.between ++ (d.value ++ d.trailing))

/-- The raw text that an opening brace ends. The white space after a selector is a part of it, as a
backslash at the end of the selector escapes it. -/
def Head.raw : Head → Text
  | .rule selector between => selector ++ between
  | .atRule h => h.raw

/-- The fields of the head of an at-rule. White space without parameters stands after them. -/
structure AtHead.Regular (h : AtHead) : Prop where
  name : atName? h.name = some (h.name, [])
  boundary : Text.Clear isNameMore h.raw
  afterName : Text.All isGap h.afterName
  params : Text.Trimmed isGap h.params
  between : Text.All isGap h.between
  blank : h.params = [] → h.afterName = []

/-- The fields of a declaration. White space without a value stands in front of it, and white space
in front of a semicolon that is lacking belongs to the container. -/
structure Declaration.Regular (d : Declaration) : Prop where
  before : Text.All isTrivia d.before
  property : Text.Trimmed isGap d.property
  value : Text.Trimmed isGap d.value
  trailing : Text.All isGap d.trailing
  /-- The colon between the property and the value is the first one of the declaration. -/
  colon : ∃ lead tail, Text.All isGap lead ∧ Text.All isGap tail ∧ d.between = lead ++ ':' :: tail ∧
    cutColon none false d.raw = some (d.property ++ lead, tail ++ (d.value ++ d.trailing))
  starts : startsPlain d.raw = true
  front : Text.Clear isTrivia d.raw
  blank : d.value = [] → d.trailing = []
  opened : d.semicolon = false → d.trailing = []

/-- The fields of a rule. A selector may start with anything that begins no other item. -/
structure RuleRegular (selector between : Text) : Prop where
  trimmed : Text.trimEnd isGap selector = selector
  gaps : Text.All isGap between
  starts : startsPlain (selector ++ between ++ ['{']) = true
  front : Text.Clear isTrivia (selector ++ between)

/-- The fields of the head of a block. -/
def Head.Regular : Head → Prop
  | .rule selector between => RuleRegular selector between
  | .atRule h => h.Regular

/-- Whether the node lacks the semicolon at its end. -/
def Node.isOpen : Node → Bool
  | .declaration d => !d.semicolon
  | .statement _ _ semicolon => !semicolon
  | _ => false

/-- A node without a semicolon leaves the white space after it to its container: it is not the white
space in front of a value, and it does not go on with a name. -/
def Node.LeavesGap (g : Text) : Node → Prop
  | .declaration d => d.semicolon = false → d.value = [] → g = []
  | .statement _ h semicolon => semicolon = false → Text.Clear isNameMore (h.raw ++ g)
  | _ => True

namespace Item

/-- Whether the item is a node that lacks the semicolon at its end. -/
def isOpen : Item → Bool
  | .leaf n => n.isOpen
  | _ => false

/-- The item leaves the white space after it to its container. -/
def LeavesGap (g : Text) : Item → Prop
  | .leaf n => n.LeavesGap g
  | _ => True

/-- The raw text that ends an item. -/
def raw : Item → Text
  | .leaf (.declaration d) => d.raw
  | .leaf (.statement _ h _) => h.raw
  | .opening _ h => h.raw
  | _ => []

/-- The fields of an item are those that the reader fills in. A block is no item of its own. -/
def Regular : Item → Prop
  | .leaf (.comment before body) => Text.All isTrivia before ∧ ¬ ['*', '/'] <:+: body
  | .leaf (.declaration d) => d.Regular
  | .leaf (.statement before h semicolon) =>
    Text.All isTrivia before ∧ h.Regular ∧ (semicolon = false → h.between = [])
  | .leaf (.block ..) => False
  | .opening before h => Text.All isTrivia before ∧ h.Regular
  | .closing before => Text.All isTrivia before
  | .finish before => Text.All isTrivia before

/-- The item ends in front of `k`: nothing is left open in its raw text, or, without a semicolon,
only white space is left in its container. -/
def EndsIn (k : Text) (it : Item) : Prop :=
  if it.isOpen then
    ∃ g r, Text.All isGap g ∧ it.LeavesGap g ∧ k = g ++ r ∧
      (r = [] ∨ r.head? = some '}') ∧ span (it.raw ++ k) = .ok (it.raw ++ g, r)
  else Closed it.raw

/-- The item is read as itself in front of `k`. -/
def Fits (k : Text) (it : Item) : Prop := item (it.text ++ k) = .ok (it, k)

end Item

/-- What is read is read as itself in front of what is left. -/
theorem fits_of_item {s r : Text} {it : Item} (h : item s = .ok (it, r)) : it.Fits r := by
  rw [Item.Fits, item_text h]
  exact h

theorem item_append {a s : Text} (ha : Text.All isTrivia a) (hs : Text.Clear isTrivia s) :
    item (a ++ s) = itemAfter a s := by
  rw [item, Text.leading_of_all ha, Text.leading_of_clear hs, List.append_nil,
    Text.trimStart_of_all ha, Text.trimStart_of_clear hs]

theorem item_finish {a : Text} (ha : Text.All isTrivia a) : item a = .ok (.finish a, []) := by
  have h := item_append ha Text.clear_nil
  rwa [List.append_nil] at h

theorem item_closing {a : Text} (ha : Text.All isTrivia a) (r : Text) :
    item (a ++ '}' :: r) = .ok (.closing a, r) :=
  item_append ha (Text.clear_cons.2 (by decide))

theorem AtHead.ofRaw_eq (name : Text) {afterName params between : Text} (hafter : Text.All isGap afterName)
    (hparams : Text.Trimmed isGap params) (hbetween : Text.All isGap between)
    (hblank : params = [] → afterName = []) :
    AtHead.ofRaw name (afterName ++ (params ++ between)) = ⟨name, params, afterName, between⟩ := by
  have htrim : Text.trim isGap (afterName ++ (params ++ between)) = params :=
    hparams.trim_eq hafter hbetween
  unfold AtHead.ofRaw
  simp only [htrim]
  by_cases h : params = []
  · simp [h, hblank h]
  · have hclear : Text.Clear isGap (params ++ between) := hparams.1.append h between
    simp [h, Text.leading_of_all hafter, Text.leading_of_clear hclear, Text.trimStart_of_all hafter,
      Text.trimStart_of_clear hclear, Text.trailing_append_of_all hparams.2 hbetween]

theorem Declaration.ofRaw_eq {before property lead tail value trailing : Text}
    (hproperty : Text.trimEnd isGap property = property) (hlead : Text.All isGap lead)
    (htail : Text.All isGap tail) (hvalue : Text.Trimmed isGap value)
    (htrailing : Text.All isGap trailing) (hblank : value = [] → trailing = []) :
    Declaration.ofRaw before (property ++ lead) (tail ++ (value ++ trailing)) =
      ⟨property, value, before, lead ++ ':' :: tail, trailing, true⟩ := by
  have hclear : Text.Clear isGap (value ++ trailing) := by
    by_cases h : value = []
    · simp [h, hblank h]
    · exact hvalue.1.append h trailing
  simp [Declaration.ofRaw, Text.trimEnd_append_of_all _ hlead, hproperty,
    Text.trailing_append_of_all hproperty hlead, Text.leading_of_all htail,
    Text.leading_of_clear hclear, Text.trimStart_of_all htail, Text.trimStart_of_clear hclear,
    Text.trimEnd_append_of_all _ htrailing, hvalue.2,
    Text.trailing_append_of_all hvalue.2 htrailing]

@[simp] theorem AtHead.raw_ofRaw (name raw : Text) : (AtHead.ofRaw name raw).raw = raw := by
  have h := AtHead.text_ofRaw name raw
  rw [AtHead.text, AtHead.ofRaw_name] at h
  simpa [AtHead.raw] using h

namespace AtHead

variable {h : AtHead}

theorem Regular.shaped (hr : h.Regular) : h.Shaped where
  name := hr.name
  boundary := hr.boundary
  afterName := hr.afterName
  between := hr.between

theorem Regular.ofRaw_raw (hr : h.Regular) : AtHead.ofRaw h.name h.raw = h :=
  ofRaw_eq h.name hr.afterName hr.params hr.between hr.blank

theorem Regular.atName?_append (hr : h.Regular) {k : Text} (hk : Text.Clear isNameMore k) :
    atName? (h.name ++ (h.raw ++ k)) = some (h.name, h.raw ++ k) :=
  atName?_append_clear hr.name (Text.clear_append hr.boundary hk)

theorem regular_ofRaw {s name x raw r : Text} (hname : atName? s = some (name, x))
    (hspan : span x = .ok (raw, r)) : (AtHead.ofRaw name raw).Regular := by
  have hs := AtHead.shaped_ofRaw hname hspan
  refine ⟨hs.name, hs.boundary, hs.afterName, ?_, hs.between, ?_⟩
  · rw [ofRaw_params]
    exact Text.trimmed_trim isGap raw
  · rw [ofRaw_params]
    intro h
    simp [AtHead.ofRaw, h]

/-- Without the white space after its parameters the head keeps its fields. -/
theorem Regular.withoutBetween (hr : h.Regular) : ({ h with between := [] } : AtHead).Regular where
  name := hr.name
  boundary := by
    have hb := hr.boundary
    rw [raw, ← List.append_assoc] at hb
    simpa [raw] using hb.of_append
  afterName := hr.afterName
  params := hr.params
  between := by simp
  blank := hr.blank

end AtHead

namespace Declaration

variable {d : Declaration}

theorem Regular.shaped (hr : d.Regular) : d.Shaped where
  before := hr.before
  property := hr.property.2
  between := by
    obtain ⟨lead, tail, hlead, htail, hbetween, hcolon⟩ := hr.colon
    refine ⟨lead, tail, hlead, htail, hbetween, fun x => ?_⟩
    simpa using cutColon_append_colon hcolon x
  starts x := by
    obtain ⟨lead, tail, -, -, hbetween, -⟩ := hr.colon
    have hstarts := hr.starts
    rw [raw, hbetween, List.append_assoc, ← List.append_assoc, List.cons_append] at hstarts
    have := startsPlain_append (w := tail ++ x) (by decide) hstarts
    simpa [hbetween] using this
  front := by
    have hfront := hr.front
    rw [raw, ← List.append_assoc] at hfront
    exact hfront.of_append
  trailing := hr.trailing

theorem Shaped.regular (hs : d.Shaped) (hvalue : Text.Trimmed isGap d.value)
    (hblank : d.value = [] → d.trailing = []) (hopened : d.semicolon = false → d.trailing = []) :
    d.Regular where
  before := hs.before
  property := by
    refine ⟨fun c hc => ?_, hs.property⟩
    have hfront : isTrivia c = false := hs.front.of_append c hc
    simp only [isTrivia, Bool.or_eq_false_iff] at hfront
    exact hfront.1
  value := hvalue
  trailing := hs.trailing
  colon := by
    obtain ⟨lead, tail, hlead, htail, hbetween, hcolon⟩ := hs.between
    refine ⟨lead, tail, hlead, htail, hbetween, ?_⟩
    have := hcolon (tail ++ (d.value ++ d.trailing))
    simpa [raw, hbetween] using this
  starts := by simpa [raw] using hs.starts (d.value ++ d.trailing)
  front := by
    obtain ⟨lead, tail, -, -, hbetween, -⟩ := hs.between
    have hne : d.property ++ d.between ≠ [] := by simp [hbetween]
    simpa [raw] using hs.front.append hne (d.value ++ d.trailing)
  blank := hblank
  opened := hopened

/-- The value of a raw text is trimmed, and without a value nothing trails it. -/
theorem value_ofRaw (before front back : Text) :
    Text.Trimmed isGap (Declaration.ofRaw before front back).value ∧
      ((Declaration.ofRaw before front back).value = [] →
        (Declaration.ofRaw before front back).trailing = []) := by
  refine ⟨Text.trimmed_trim isGap back, fun h => ?_⟩
  have hall := Text.all_trailing isGap (Text.trimStart isGap back)
  have hclear := Text.clear_trimStart isGap back
  have happ := Text.trimEnd_append_trailing isGap (Text.trimStart isGap back)
  change Text.trimEnd isGap (Text.trimStart isGap back) = [] at h
  change Text.trailing isGap (Text.trimStart isGap back) = []
  rw [h, List.nil_append] at happ
  rw [← happ] at hclear
  rw [← Text.leading_of_clear hclear, ← List.append_nil (Text.trailing _ _),
    Text.leading_of_all hall, Text.leading_of_clear Text.clear_nil]

end Declaration

namespace Item

variable {it : Item} {before k s r u : Text}

theorem endsIn_of_closed (ho : it.isOpen = false) (h : Closed it.raw) : it.EndsIn k := by
  simpa [EndsIn, ho] using h

theorem closed_of_endsIn (ho : it.isOpen = false) (h : it.EndsIn k) : Closed it.raw := by
  simpa [EndsIn, ho] using h

theorem endsIn_of_isOpen (ho : it.isOpen = true) : it.EndsIn k ↔
    ∃ g r, Text.All isGap g ∧ it.LeavesGap g ∧ k = g ++ r ∧
      (r = [] ∨ r.head? = some '}') ∧ span (it.raw ++ k) = .ok (it.raw ++ g, r) := by
  simp [EndsIn, ho]

/-- Fields that the reader fills in have the shape of those that were read. -/
theorem Regular.shaped (hr : it.Regular) (hc : it.isOpen = false → Closed it.raw) :
    it.Shaped := by
  cases it with
  | leaf n =>
    cases n with
    | comment before body =>
      exact ⟨hr.1, fun x => commentBody?_eq_some_iff.2 ⟨rfl, hr.2⟩⟩
    | declaration d => exact Declaration.Regular.shaped hr
    | statement before h semicolon => exact ⟨hr.1, hr.2.1.shaped, hr.2.2⟩
    | block => exact hr.elim
  | opening before h =>
    cases h with
    | rule selector between =>
      have hrule : RuleRegular selector between := hr.2
      refine ⟨hr.1, hrule.trimmed, hrule.gaps, hc rfl, fun x => ?_, hrule.front⟩
      exact startsPlain_append (by decide) hrule.starts
    | atRule h => exact ⟨hr.1, AtHead.Regular.shaped hr.2⟩
  | closing before => exact hr
  | finish before => exact hr

/-- An item is read as itself if its form is found in front of `k`. -/
theorem fits_of_form (hs : it.Shaped) (ht : it.takesText)
    (h : ItemForm it.before (it.core ++ k) it k) : it.Fits k := by
  rw [Fits, ← it.before_append_core, List.append_assoc,
    item_append (all_before hs) (clear_core hs ht k)]
  exact itemAfter_eq_ok_iff.2 h

theorem selfForm_declaration {d : Declaration} (hr : d.Regular)
    (he : (Item.leaf (.declaration d)).EndsIn k) :
    ItemForm d.before ((Item.leaf (.declaration d)).core ++ k) (.leaf (.declaration d)) k := by
  obtain ⟨lead, tail, hlead, htail, hbetween, hcolon⟩ := hr.colon
  have hstarts : ∀ x, startsPlain (d.raw ++ x) = true := fun x => by
    have := hr.shaped.starts (d.value ++ (d.trailing ++ x))
    simpa [Declaration.raw] using this
  cases hsemi : d.semicolon with
  | true =>
    have hclosed := closed_of_endsIn (by simp [isOpen, Node.isOpen, hsemi]) he
    have hcore : (Item.leaf (.declaration d)).core ++ k = d.raw ++ ';' :: k := by
      simp [core, Declaration.raw, hsemi]
    have hform : ItemForm d.before _ _ _ := ItemForm.declaration (hstarts (';' :: k))
      ((span_eq_ok_stop_iff (by decide)).2 hclosed) hcolon
    rw [Declaration.ofRaw_eq hr.property.2 hlead htail hr.value hr.trailing hr.blank, ← hbetween,
      ← hsemi] at hform
    rw [hcore]
    exact hform
  | false =>
    obtain ⟨g, r, hg, hleaves, hk, hend, hspan⟩ :=
      (endsIn_of_isOpen (by simp [isOpen, Node.isOpen, hsemi])).1 he
    have hnil : d.trailing = [] := hr.opened hsemi
    have hcore : (Item.leaf (.declaration d)).core ++ k = d.raw ++ k := by
      simp [core, Declaration.raw, hsemi, hnil]
    have hblank : d.value = [] → g = [] := hleaves hsemi
    have hcolon' : cutColon none false (d.raw ++ g) =
        some (d.property ++ lead, tail ++ (d.value ++ g)) := by
      have := cutColon_append_colon hcolon (tail ++ (d.value ++ g))
      simpa [Declaration.raw, hbetween, hnil] using this
    have hform : ItemForm d.before _ _ _ := ItemForm.openDeclaration (hstarts k) hspan
      (by rcases hend with rfl | h <;> simp_all) (by rcases hend with rfl | h <;> simp_all) hcolon'
    rw [Declaration.ofRaw_eq hr.property.2 hlead htail hr.value hg hblank, ← hbetween, ← hsemi,
      ← hnil] at hform
    rw [hcore, hk]
    rw [hk] at hform
    exact hform

theorem selfForm_statement {h : AtHead} {semicolon : Bool} (hr : h.Regular)
    (hbetween : semicolon = false → h.between = [])
    (he : (Item.leaf (.statement before h semicolon)).EndsIn k) :
    ItemForm before ((Item.leaf (.statement before h semicolon)).core ++ k)
      (.leaf (.statement before h semicolon)) k := by
  cases semicolon with
  | true =>
    have hclosed := closed_of_endsIn (by rfl) he
    have hcore : (Item.leaf (.statement before h true)).core ++ k =
        '@' :: (h.name ++ (h.raw ++ ';' :: k)) := by simp [core, AtHead.text, AtHead.raw]
    have hname := hr.atName?_append (k := ';' :: k) (Text.clear_cons.2 (by decide))
    have hform : ItemForm before _ _ _ := ItemForm.statement hname
      ((span_eq_ok_stop_iff (by decide)).2 hclosed)
    rw [hr.ofRaw_raw] at hform
    rw [hcore]
    exact hform
  | false =>
    obtain ⟨g, r, hg, hleaves, hk, hend, hspan : span (h.raw ++ k) = .ok (h.raw ++ g, r)⟩ :=
      (endsIn_of_isOpen (by rfl)).1 he
    have hnil : h.between = [] := hbetween rfl
    have hcore : (Item.leaf (.statement before h false)).core ++ k =
        '@' :: (h.name ++ (h.raw ++ k)) := by simp [core, AtHead.text, AtHead.raw]
    have hclear : Text.Clear isNameMore (h.raw ++ k) := by
      rw [hk, ← List.append_assoc]
      refine Text.clear_append (hleaves rfl) ?_
      rcases hend with rfl | hr
      · exact Text.clear_nil
      · obtain ⟨r', rfl⟩ := List.head?_eq_some_iff.1 hr
        exact Text.clear_cons.2 (by decide)
    have hname := atName?_append_clear hr.name hclear
    have hraw : AtHead.ofRaw h.name (h.raw ++ g) = { h with between := g } := by
      have := AtHead.ofRaw_eq h.name hr.afterName hr.params hg hr.blank
      simpa [AtHead.raw, hnil] using this
    have hform : ItemForm before _ _ _ := ItemForm.openStatement hname hspan
      (by rcases hend with rfl | h <;> simp_all) (by rcases hend with rfl | h <;> simp_all)
    rw [hraw, ← hnil] at hform
    rw [hcore, hk]
    rw [hk] at hform
    exact hform

theorem selfForm_opening {h : Head} (hr : h.Regular) (hc : Closed h.raw) :
    ItemForm before ((Item.opening before h).core ++ k) (.opening before h) k := by
  cases h with
  | rule selector between =>
    have hrule : RuleRegular selector between := hr
    have hclosed : Closed (selector ++ between) := hc
    have hcore : (Item.opening before (.rule selector between)).core ++ k =
        selector ++ between ++ '{' :: k := by simp [core, Head.text]
    have hform : ItemForm before _ _ _ := ItemForm.rule
      (startsPlain_append (w := k) (by decide) hrule.starts)
      ((span_eq_ok_stop_iff (by decide)).2 hclosed)
    rw [Text.trimEnd_append_of_all _ hrule.gaps, hrule.trimmed,
      Text.trailing_append_of_all hrule.trimmed hrule.gaps] at hform
    rw [hcore]
    exact hform
  | atRule h =>
    have hat : h.Regular := hr
    have hclosed : Closed h.raw := hc
    have hcore : (Item.opening before (.atRule h)).core ++ k =
        '@' :: (h.name ++ (h.raw ++ '{' :: k)) := by
      simp [core, Head.text, AtHead.text, AtHead.raw]
    have hname := hat.atName?_append (k := '{' :: k) (Text.clear_cons.2 (by decide))
    have hform : ItemForm before _ _ _ := ItemForm.atBlock hname
      ((span_eq_ok_stop_iff (by decide)).2 hclosed)
    rw [hat.ofRaw_raw] at hform
    rw [hcore]
    exact hform

/-- Fields that the reader fills in are read again in front of a text in which the item ends. -/
theorem fits_of_regular (hr : it.Regular) (ht : it.takesText) (he : it.EndsIn k) : it.Fits k := by
  refine fits_of_form (hr.shaped fun ho => closed_of_endsIn ho he) ht ?_
  cases it with
  | leaf n =>
    cases n with
    | comment before body =>
      have hcore : (Item.leaf (.comment before body)).core ++ k =
          '/' :: '*' :: (body ++ '*' :: '/' :: k) := by simp [core]
      rw [hcore]
      exact .comment (commentBody?_eq_some_iff.2 ⟨rfl, hr.2⟩)
    | declaration d => exact selfForm_declaration hr he
    | statement before h semicolon => exact selfForm_statement hr.2.1 hr.2.2 he
    | block => exact hr.elim
  | opening before h => exact selfForm_opening hr.2 (closed_of_endsIn rfl he)
  | closing before => exact .closing k
  | finish before => cases ht

/-- Where a span without a semicolon or a block after it ends, a block or the text ends. -/
theorem rest_of_span (h : span s = .ok (u, r)) (hbrace : r.head? ≠ some '{')
    (hsemi : r.head? ≠ some ';') : r = [] ∨ r.head? = some '}' := by
  cases r with
  | nil => exact .inl rfl
  | cons c r =>
    have hc : isStop c = true := by simpa using clear_of_spanFrom h c
    rcases isStop_iff.1 hc with rfl | rfl | rfl <;> simp_all

/-- The reader fills in such fields, and the item ends there. -/
theorem regular_of_form (hbefore : Text.All isTrivia before) (hclear : Text.Clear isTrivia u)
    (h : ItemForm before u it r) : it.Regular ∧ it.EndsIn r := by
  have hs := shaped_of_form hbefore hclear h
  cases h with
  | finish => exact ⟨hbefore, endsIn_of_closed rfl .done⟩
  | closing => exact ⟨hbefore, endsIn_of_closed rfl .done⟩
  | comment hb =>
    exact ⟨⟨hbefore, (commentBody?_eq_some_iff.1 hb).2⟩, endsIn_of_closed rfl .done⟩
  | atBlock hn hsp =>
    refine ⟨⟨hbefore, AtHead.regular_ofRaw hn hsp⟩, endsIn_of_closed rfl ?_⟩
    simpa [raw, Head.raw] using closed_of_span hsp
  | statement hn hsp =>
    refine ⟨⟨hbefore, AtHead.regular_ofRaw hn hsp, by simp⟩, endsIn_of_closed rfl ?_⟩
    simpa [raw] using closed_of_span hsp
  | @openStatement s name x raw' r hn hsp hbrace hsemi =>
    have hr := AtHead.regular_ofRaw hn hsp
    refine ⟨⟨hbefore, hr.withoutBetween, by simp⟩, (endsIn_of_isOpen rfl).2 ?_⟩
    refine ⟨_, r, hr.between, fun _ => ?_, rfl, rest_of_span hsp hbrace hsemi, ?_⟩
    · simpa [AtHead.raw] using hr.boundary
    · have hraw := AtHead.raw_ofRaw name raw'
      rw [← span_append hsp, ← hraw] at hsp
      simpa [raw, AtHead.raw] using hsp
  | @rule s raw' r hp hsp =>
    have happ := Text.trimEnd_append_trailing isGap raw'
    refine ⟨⟨hbefore, Text.trimEnd_trimEnd isGap _, Text.all_trailing isGap _, ?_, hs.2.front⟩,
      endsIn_of_closed rfl ?_⟩
    · exact hs.2.starts []
    · simpa [raw, Head.raw, happ] using closed_of_span hsp
  | @declaration s raw' front back r hp hsp hc =>
    have hv := Declaration.value_ofRaw before front back
    refine ⟨Declaration.Shaped.regular hs hv.1 hv.2 (by simp [Declaration.ofRaw]),
      endsIn_of_closed rfl ?_⟩
    have hraw : (Declaration.ofRaw before front back).raw = raw' :=
      (Declaration.ofRaw_append before front back).trans (cutColon_append hc)
    simpa [raw, hraw] using closed_of_span hsp
  | @openDeclaration s raw' front back r hp hsp hbrace hsemi hc =>
    have hv := Declaration.value_ofRaw before front back
    refine ⟨Declaration.Shaped.regular hs hv.1 (by simp) (by simp), (endsIn_of_isOpen rfl).2 ?_⟩
    refine ⟨_, r, Text.all_trailing isGap _, fun _ => hv.2, rfl,
      rest_of_span hsp hbrace hsemi, ?_⟩
    · have hraw : (Declaration.ofRaw before front back).raw = raw' :=
        (Declaration.ofRaw_append before front back).trans (cutColon_append hc)
      rw [← span_append hsp, ← hraw] at hsp
      simpa [raw, Declaration.raw, Declaration.ofRaw] using hsp

theorem regular_of_item (h : item s = .ok (it, r)) : it.Regular ∧ it.EndsIn r :=
  regular_of_form (Text.all_leading isTrivia s) (Text.clear_trimStart isTrivia s)
    (item_eq_ok_iff.1 h)

/-- An item is read as itself in front of `k` if and only if its fields are those that the reader
fills in and it ends there. -/
theorem fits_iff (ht : it.takesText) : it.Fits k ↔ it.Regular ∧ it.EndsIn k :=
  ⟨regular_of_item, fun h => fits_of_regular h.1 ht h.2⟩

/-- After an item that lacks its semicolon only white space is left in its container. -/
theorem next_of_isOpen (h : item s = .ok (it, r)) (ho : it.isOpen = true) :
    ∃ g, Text.All isGap g ∧ it.LeavesGap g ∧
      (item r = .ok (.finish g, []) ∨ ∃ r', item r = .ok (.closing g, r')) := by
  obtain ⟨g, k, hg, hleaves, rfl, hend, -⟩ := (endsIn_of_isOpen ho).1 (regular_of_item h).2
  have htrivia := Text.all_isTrivia_of_all_isGap hg
  refine ⟨g, hg, hleaves, ?_⟩
  rcases hend with rfl | hend
  · exact .inl ((List.append_nil g).symm ▸ item_finish htrivia)
  · obtain ⟨k', rfl⟩ := List.head?_eq_some_iff.1 hend
    exact .inr ⟨k', item_closing htrivia k'⟩

end Item

end StyleSplice
