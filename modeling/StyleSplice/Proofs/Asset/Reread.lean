import StyleSplice.Proofs.Asset.Replaced
import StyleSplice.Proofs.Asset.Substitution
import StyleSplice.Proofs.Sheet.Items
import StyleSplice.Proofs.Url.Web

/-!
# Anchored values are read as they were written

Anchoring puts the resolved address in the place of each relative one. As long as the finders pass
over both, they find the references of the result where the value had them, with the same quotes and
the resolved addresses; and as these are absolute, anchoring the result again changes nothing.
-/

namespace StyleSplice

namespace AssetRef

variable {p w w' : Nat} {front origin out s t value x y : Text} {a a' b b' : AssetRef}
  {refs refs' pre post : List AssetRef}

/-- A string stands between its quotes. -/
theorem slot_of_stringAt {n k : Nat} (h : stringAt n t = some (a, k)) :
    ∃ q s, t = q :: (a.url ++ q :: s) ∧ isQuote q = true ∧ a.quote = some q ∧ a.start = n + 1 ∧
      a.stop = n + 1 + a.url.length := by
  cases t with
  | nil => cases h
  | cons q r =>
    rw [stringAt] at h
    split_ifs at h with hq
    obtain ⟨⟨url, s⟩, hcut, ha⟩ := Option.map_eq_some_iff.1 h
    cases ha
    obtain ⟨c, hc, rfl, -⟩ := Text.exists_of_cutAt hcut
    obtain rfl : c = q := by simpa using hc
    exact ⟨c, s, rfl, hq, rfl, rfl, rfl⟩

/-- Every reference stands in a slot. -/
theorem exists_slot (h : a ∈ findAll value) : ∃ front s, value = front ++ (a.url ++ s) ∧
    a.start = front.length ∧ a.stop = front.length + a.url.length ∧ Slot a.quote front s ∧
      (a.quote = none → Text.All isBareChar a.url) := by
  rcases List.mem_append.1 ((findAll_perm value).mem_iff.1 h) with h | h
  · obtain ⟨⟨b, i, j⟩, hx, rfl⟩ := List.mem_map.1 h
    obtain ⟨call, t, rest, rfl, form, -⟩ := exists_form_of_mem_urlCalls hx
    dsimp only at form ⊢
    rw [Nat.zero_add] at form
    cases form with
    | @quoted word gap url gap' _ q named gaps quote first gaps' =>
      have hlength : word.length = 4 := named.length_eq
      refine ⟨call ++ (word ++ gap) ++ [q], q :: (gap' ++ ')' :: rest), by simp, ?_, ?_,
        .quoted quote, fun hq => by cases hq⟩ <;>
        simp only [List.length_append, List.length_singleton, hlength] <;> omega
    | @bare word gap url gap' _ named gaps plain gaps' empty =>
      have hlength : word.length = 4 := named.length_eq
      refine ⟨call ++ (word ++ gap), gap' ++ ')' :: rest, by simp, ?_, ?_, .bare named gaps gaps',
        fun _ => plain⟩ <;>
        simp only [List.length_append, hlength] <;> omega
  · have hmem := (mem_counted.1 h).1
    rw [imageSetStrings_eq] at hmem
    obtain ⟨⟨n, args⟩, hset, hstring⟩ := List.mem_flatMap.1 hmem
    obtain ⟨f, back, rfl, hplace⟩ := mem_imageSets hset
    rw [strings_eq_scan] at hstring
    obtain ⟨g, t, k, hargs, hfound⟩ := exists_of_mem_scan hstring
    obtain ⟨q, s, rfl, hq, hquote, hstart, hstop⟩ := slot_of_stringAt hfound
    dsimp only at hargs hplace
    rw [hquote]
    refine ⟨f ++ g ++ [q], q :: (s ++ back), by simp [hargs], ?_, ?_, .quoted hq,
      fun hnone => by cases hnone⟩ <;>
      simp only [List.length_append, List.length_singleton] <;> omega

theorem forall₂_mem {α β : Type} {R : α → β → Prop} {l : List α} {l' : List β}
    (h : List.Forall₂ R l l') : List.Forall₂ (fun a b => R a b ∧ a ∈ l ∧ b ∈ l') l l' := by
  induction h with
  | nil => exact .nil
  | cons hab _ ih =>
    refine .cons ⟨hab, List.mem_cons_self, List.mem_cons_self⟩ (ih.imp fun a b h => ?_)
    exact ⟨h.1, List.mem_cons_of_mem _ h.2.1, List.mem_cons_of_mem _ h.2.2⟩

theorem exists_of_mem_right {α β : Type} {R : α → β → Prop} {l : List α} {l' : List β} {b : β}
    (h : List.Forall₂ R l l') (hb : b ∈ l') : ∃ a ∈ l, R a b := by
  induction h with
  | nil => cases hb
  | @cons a _ _ _ hab _ ih =>
    rcases List.mem_cons.1 hb with rfl | hb
    · exact ⟨a, List.mem_cons_self, hab⟩
    · obtain ⟨a, ha, hab⟩ := ih hb
      exact ⟨a, List.mem_cons_of_mem _ ha, hab⟩

/-- What is related to a list in two parts has two parts itself. -/
theorem exists_parts {α β : Type} {R : α → β → Prop} {l₁ l₂ : List α} {l' : List β}
    (h : List.Forall₂ R (l₁ ++ l₂) l') :
    ∃ l₁' l₂', l' = l₁' ++ l₂' ∧ List.Forall₂ R l₁ l₁' ∧ List.Forall₂ R l₂ l₂' := by
  induction l₁ generalizing l' with
  | nil => exact ⟨[], l', rfl, .nil, h⟩
  | cons a l₁ ih =>
    obtain ⟨b, u, hab, hu, rfl⟩ := List.forall₂_cons_left_iff.1 h
    obtain ⟨l₁', l₂', rfl, h₁, h₂⟩ := ih hu
    exact ⟨b :: l₁', l₂', rfl, .cons hab h₁, h₂⟩

/-- One reference ends before another one begins. -/
def Precedes (a b : AssetRef) : Prop := a.stop ≤ b.start

instance (a b : AssetRef) : Decidable (a.Precedes b) := inferInstanceAs (Decidable (_ ≤ _))

theorem pairwise_moved (hw : 0 < w) (hw' : 0 < w') (h : List.Forall₂ (Moved p w w') refs refs')
    (hapart : refs.Pairwise Precedes) : refs'.Pairwise Precedes := by
  induction h with
  | nil => exact .nil
  | cons hab hrest ih =>
    obtain ⟨hfirst, hlater⟩ := List.pairwise_cons.1 hapart
    refine List.pairwise_cons.2 ⟨fun c' hc' => ?_, ih hlater⟩
    obtain ⟨c, hc, hmoved⟩ := exists_of_mem_right hrest hc'
    exact (hab.stop.le_iff hw hw' hmoved.start).2 (hfirst c hc)

/-- The reference is as it was, with its place. -/
structure Stays (a a' : AssetRef) : Prop where
  quote : a'.quote = a.quote
  url : a'.url = a.url
  start : a'.start = a.start
  stop : a'.stop = a.stop

/-- The reference has the same quotes and the same address. -/
structure Agrees (a a' : AssetRef) : Prop where
  quote : a'.quote = a.quote
  url : a'.url = a.url

theorem InPlace.of_append (h : a.InPlace 0 (s ++ t)) (hstop : a.stop ≤ s.length) :
    a.InPlace 0 s := by
  obtain ⟨f, back, heq, hstart, hstop'⟩ := h
  have hprefix : f ++ a.url <+: s := by
    refine List.prefix_of_prefix_length_le ⟨back, ?_⟩ ⟨t, rfl⟩ ?_
    · rw [heq, List.append_assoc]
    · rw [List.length_append]
      omega
  obtain ⟨rest, rfl⟩ := hprefix
  exact ⟨f, rest, List.append_assoc _ _ _, hstart, hstop'⟩

/-- In front of a slot a reference stays as it is. -/
theorem Moved.stays (hx : x ≠ []) (h : Moved front.length x.length y.length a a')
    (hin : a.InPlace 0 (front ++ (x ++ s))) (hin' : a'.InPlace 0 (front ++ (y ++ s)))
    (hstop : a.stop ≤ front.length) : Stays a a' := by
  have hpos := List.length_pos_iff.2 hx
  have hle := hin.bounds.1
  have hstart' : a'.start = a.start := by
    have := h.start
    unfold MovesTo at this
    omega
  have hstop' : a'.stop = a.stop := by
    have := h.stop
    unfold MovesTo at this
    omega
  have hurl := (hin.of_append hstop).slice
  have hurl' := (hin'.of_append (hstop' ▸ hstop)).slice
  rw [hstart', hstop', hurl] at hurl'
  exact ⟨h.quote, hurl'.symm, hstart', hstop'⟩

/-- Behind a slot a reference has the address that it had. -/
theorem Moved.agrees (hx : x ≠ []) (h : Moved front.length x.length y.length a a')
    (hin : a.InPlace 0 (front ++ (x ++ s))) (hin' : a'.InPlace 0 (front ++ (y ++ s)))
    (hstart : front.length + x.length ≤ a.start) : Agrees a a' := by
  have hpos := List.length_pos_iff.2 hx
  have hle := hin.bounds.1
  have hstart' : a'.start + x.length = a.start + y.length := by
    have := h.start
    unfold MovesTo at this
    omega
  have hstop' : a'.stop + x.length = a.stop + y.length := by
    have := h.stop
    unfold MovesTo at this
    omega
  rw [← List.append_assoc] at hin hin'
  obtain ⟨gap, rest, hs, hgap, hurl⟩ := hin.exists_gap (by rw [List.length_append]; omega)
  obtain ⟨gap', rest', hs', hgap', hurl'⟩ := hin'.exists_gap (by rw [List.length_append]; omega)
  rw [List.length_append] at hgap hgap'
  rw [hs] at hs'
  obtain ⟨-, htail⟩ := List.append_inj hs' (by omega)
  exact ⟨h.quote, (List.append_inj htail (by omega)).1.symm⟩

/-- The address in the slot is the new one. -/
theorem Moved.eq_address (hx : x ≠ []) (h : Moved front.length x.length y.length a a')
    (hin' : a'.InPlace 0 (front ++ (y ++ s))) (hstart : a.start = front.length)
    (hstop : a.stop = front.length + x.length) : a'.url = y := by
  have hpos := List.length_pos_iff.2 hx
  have hstart' : a'.start = front.length := by
    have := h.start
    unfold MovesTo at this
    omega
  have hstop' : a'.stop = front.length + y.length := by
    have := h.stop
    unfold MovesTo at this
    omega
  obtain ⟨gap, rest, htext, hgap, hurl⟩ := hin'.exists_gap (Nat.le_of_eq hstart'.symm)
  obtain rfl : gap = [] := List.length_eq_zero_iff.1 (by omega)
  rw [List.nil_append] at htext
  exact (List.append_inj htext (by omega)).1.symm

/-- When a reference is resolved, those around it keep their addresses, and those in front of it
their places as well. -/
theorem findAll_resolved (hfound : findAll value = pre ++ b :: post)
    (hapart : (findAll value).Pairwise Precedes) (hne : b.url ≠ []) (hb : Inert b.url)
    (hy : Fits b.quote y) :
    ∃ pre' b' post', findAll (value.take b.start ++ y ++ value.drop b.stop) = pre' ++ b' :: post' ∧
      List.Forall₂ Stays pre pre' ∧ b'.quote = b.quote ∧ b'.url = y ∧
      List.Forall₂ Agrees post post' ∧ (pre' ++ b' :: post').Pairwise Precedes := by
  have hmem : b ∈ findAll value := by
    rw [hfound]
    simp
  obtain ⟨front, s, hvalue, hstart, hstop, hslot, hplain⟩ := exists_slot hmem
  have htext : value.take b.start ++ y ++ value.drop b.stop = front ++ (y ++ s) := by
    rw [hvalue, hstart, hstop, List.take_left, ← List.append_assoc front b.url,
      List.drop_left' (by rw [List.length_append]), List.append_assoc]
  have hmoved := hslot.findAll ⟨hb, hne, hplain⟩ hy
  rw [← hvalue] at hmoved
  have hpairwise := pairwise_moved (List.length_pos_iff.2 hne) (List.length_pos_iff.2 hy.ne_nil)
    hmoved hapart
  have hall : List.Forall₂ (fun a a' => Moved front.length b.url.length y.length a a' ∧
      a.InPlace 0 (front ++ (b.url ++ s)) ∧ a'.InPlace 0 (front ++ (y ++ s))) (findAll value)
      (findAll (front ++ (y ++ s))) := by
    refine (forall₂_mem hmoved).imp fun a a' h => ⟨h.1, ?_, inPlace_of_mem_findAll h.2.2⟩
    rw [← hvalue]
    exact inPlace_of_mem_findAll h.2.1
  rw [hfound] at hall hapart
  obtain ⟨pre', rest', hrefs, hpre, hrest⟩ := exists_parts hall
  obtain ⟨b', post', hb', hpost, rfl⟩ := List.forall₂_cons_left_iff.1 hrest
  obtain ⟨-, hlater, hfirst⟩ := List.pairwise_append.1 hapart
  rw [htext, hrefs]
  rw [hrefs] at hpairwise
  refine ⟨pre', b', post', rfl, ?_, hb'.1.quote, hb'.1.eq_address hne hb'.2.2 hstart hstop, ?_,
    hpairwise⟩
  · refine (forall₂_mem hpre).imp fun a a' h => h.1.1.stays hne h.1.2.1 h.1.2.2 ?_
    exact hstart ▸ hfirst a h.2.1 b List.mem_cons_self
  · refine (forall₂_mem hpost).imp fun a a' h => h.1.1.agrees hne h.1.2.1 h.1.2.2 ?_
    exact hstop ▸ (List.pairwise_cons.1 hlater).1 a h.2.1

/-- The reference is read with its quotes and the address that it stands for in a document at
`origin`. -/
structure Rereads (origin : Text) (a a' : AssetRef) : Prop where
  quote : a'.quote = a.quote
  resolved : a.isAnchorable = true → resolveReference a.url origin = .ok a'.url
  kept : a.isAnchorable = false → a'.url = a.url

theorem Stays.trans {a'' : AssetRef} (h : Stays a a') (h' : Stays a' a'') : Stays a a'' :=
  ⟨h'.quote.trans h.quote, h'.url.trans h.url, h'.start.trans h.start, h'.stop.trans h.stop⟩

theorem Rereads.agrees {a'' : AssetRef} (h : Rereads origin a a') (h' : Agrees a' a'') :
    Rereads origin a a'' :=
  ⟨h'.quote.trans h.quote, fun hyes => h'.url ▸ h.resolved hyes,
    fun hno => h'.url.trans (h.kept hno)⟩

theorem forall₂_comp {α β γ : Type} {R : α → β → Prop} {S : β → γ → Prop} {T : α → γ → Prop}
    {l : List α} {l' : List β} {l'' : List γ} (h : List.Forall₂ R l l') (h' : List.Forall₂ S l' l'')
    (hcomp : ∀ a b c, R a b → S b c → T a c) : List.Forall₂ T l l'' := by
  induction h generalizing l'' with
  | nil =>
    obtain rfl := List.forall₂_nil_left_iff.1 h'
    exact .nil
  | cons hab _ ih =>
    obtain ⟨c, u, hbc, hu, rfl⟩ := List.forall₂_cons_left_iff.1 h'
    exact .cons (hcomp _ _ _ hab hbc) (ih hu)

/-- The references are resolved from the last to the first. Those that are not yet resolved stay as
they are, with their places. -/
theorem rereads_of_foldlM (hfound : findAll value = pre ++ post)
    (hapart : (findAll value).Pairwise Precedes)
    (hfits : ∀ a ∈ post, a.isAnchorable = true → ∀ url, resolveReference a.url origin = .ok url →
      Inert a.url ∧ Fits a.quote url)
    (h : post.reverse.foldlM (anchorIn origin) value = .ok out) :
    ∃ pre' post', findAll out = pre' ++ post' ∧ List.Forall₂ Stays pre pre' ∧
      List.Forall₂ (Rereads origin) post post' ∧ (findAll out).Pairwise Precedes := by
  induction post generalizing pre out with
  | nil =>
    cases h
    refine ⟨pre, [], hfound, List.forall₂_same.2 fun a _ => ⟨rfl, rfl, rfl, rfl⟩, .nil, hapart⟩
  | cons b post ih =>
    rw [List.foldlM_reverse, List.foldrM_cons, ← List.foldlM_reverse] at h
    cases hmid : post.reverse.foldlM (anchorIn origin) value with
    | error f =>
      rw [hmid] at h
      cases h
    | ok mid =>
      rw [hmid] at h
      have hanchor : anchorIn origin mid b = .ok out := h
      have hparts : findAll value = (pre ++ [b]) ++ post := by simp [hfound]
      obtain ⟨pre₁, post', hrefs, hpre₁, hpost, hapart'⟩ :=
        ih hparts (fun a ha => hfits a (List.mem_cons_of_mem b ha)) hmid
      obtain ⟨pre', rest', rfl, hpre, hsingle⟩ := exists_parts hpre₁
      obtain ⟨b', u, hb, hu, rfl⟩ := List.forall₂_cons_left_iff.1 hsingle
      obtain rfl := List.forall₂_nil_left_iff.1 hu
      rw [List.append_assoc, List.singleton_append] at hrefs
      unfold anchorIn at hanchor
      by_cases hanchorable : b.isAnchorable = true
      · rw [if_pos hanchorable] at hanchor
        cases hurl : resolveReference b.url origin with
        | error f =>
          rw [hurl] at hanchor
          cases hanchor
        | ok url =>
          rw [hurl] at hanchor
          cases hanchor
          obtain ⟨hinert, hfit⟩ := hfits b List.mem_cons_self hanchorable url hurl
          have hne : b.url ≠ [] := by
            intro hnil
            simp [isAnchorable, hnil] at hanchorable
          rw [← hb.url] at hinert hne
          rw [← hb.quote] at hfit
          obtain ⟨pre₂, b₂, post₂, hrefs₂, hpre₂, hquote₂, hurl₂, hpost₂, hapart₂⟩ :=
            findAll_resolved hrefs hapart' hne hinert hfit
          rw [hb.start, hb.stop] at hrefs₂
          refine ⟨pre₂, b₂ :: post₂, hrefs₂,
            forall₂_comp hpre hpre₂ fun a a' a'' h h' => h.trans h', ?_, hrefs₂ ▸ hapart₂⟩
          refine .cons ⟨hquote₂.trans hb.quote, fun _ => hurl.trans (by rw [hurl₂]), fun hno => ?_⟩
            (forall₂_comp hpost hpost₂ fun a a' a'' h h' => h.agrees h')
          rw [hanchorable] at hno
          cases hno
      · rw [if_neg hanchorable] at hanchor
        cases hanchor
        exact ⟨pre', b' :: post', hrefs, hpre,
          .cons ⟨hb.quote, fun hyes => absurd hyes hanchorable, fun _ => hb.url⟩ hpost, hapart'⟩

/-- What a relative reference is resolved to against an address on the web is not empty; and it is
absolute unless the reference has a scheme when the characters that do not count are dropped. -/
theorem resolved_of_web {url : Text} (hweb : ∃ parts, UrlParts.parse origin = .ok parts ∧
      (parts.scheme = "http".toList ∨ parts.scheme = "https".toList))
    (ha : a.isAnchorable = true) (h : resolveReference a.url origin = .ok url) : url ≠ [] ∧
      (UrlParts.cutScheme? (UrlParts.cleaned a.url) = none → isAbsolute url = true) := by
  obtain ⟨parts, hparse, hscheme⟩ := hweb
  have hparts : parts.scheme.isEmpty = false ∧
      UrlParts.authoritySchemes.contains parts.scheme = true ∧
      UrlParts.relativeSchemes.contains parts.scheme = true ∧
      ∀ rest, isAbsolute (parts.scheme ++ ':' :: '/' :: '/' :: rest) = true := by
    rcases hscheme with hs | hs <;> rw [hs] <;> exact ⟨rfl, by decide, by decide, fun _ => rfl⟩
  obtain ⟨hempty, hauthority, hrelative, habsolute⟩ := hparts
  simp only [isAnchorable, Bool.and_eq_true, Bool.not_eq_true', List.isEmpty_eq_false_iff] at ha
  obtain ⟨⟨hne, hown⟩, -⟩ := ha
  rw [resolveReference, if_neg (by simp [hown])] at h
  constructor
  · rcases UrlParts.eq_or_exists_of_join hparse hempty hauthority hne h with rfl | ⟨rest, rfl⟩
    · exact hne
    · simp
  · intro hs
    obtain ⟨rest, rfl⟩ := UrlParts.exists_of_join hparse hempty hauthority hrelative hne hs h
    exact habsolute rest

/-- A value without relative references stays as it is. -/
theorem anchorReferences_of_absolute (h : ∀ a ∈ findAll value, a.isAnchorable = false)
    (origin : Text) : anchorReferences value origin = .ok value := by
  have hall : ∀ refs : List AssetRef, (∀ a ∈ refs, a.isAnchorable = false) →
      refs.foldlM (anchorIn origin) value = .ok value := by
    intro refs hrefs
    induction refs with
    | nil => rfl
    | cons a refs ih =>
      have hkept : anchorIn origin value a = .ok value := by
        rw [anchorIn, if_neg (by simp [hrefs a List.mem_cons_self])]
      rw [List.foldlM_cons, hkept]
      exact ih fun b hb => hrefs b (List.mem_cons_of_mem a hb)
  exact hall _ fun a ha => h a (List.mem_reverse.1 ha)

/-- In a value whose references are apart, the finders pass over the relative addresses and over
what they are resolved to. Then the anchored value has the same references in the same order, with
the same quotes and the resolved addresses; and if none of the relative ones has a scheme, anchoring
it again, against any address, leaves it as it is. -/
theorem findAll_anchored (hapart : (findAll value).Pairwise Precedes)
    (hweb : ∃ parts, UrlParts.parse origin = .ok parts ∧
      (parts.scheme = "http".toList ∨ parts.scheme = "https".toList))
    (hinert : ∀ a ∈ findAll value, a.isAnchorable = true → ∀ url,
      resolveReference a.url origin = .ok url →
        Inert a.url ∧ Inert url ∧ (a.quote = none → Text.All isBareChar url))
    (h : anchorReferences value origin = .ok out) :
    List.Forall₂ (Rereads origin) (findAll value) (findAll out) ∧
      ((∀ a ∈ findAll value, a.isAnchorable = true →
          UrlParts.cutScheme? (UrlParts.cleaned a.url) = none) →
        ∀ origin', anchorReferences out origin' = .ok out) := by
  have hfits : ∀ a ∈ findAll value, a.isAnchorable = true → ∀ url,
      resolveReference a.url origin = .ok url → Inert a.url ∧ Fits a.quote url := by
    intro a ha hanchorable url hurl
    obtain ⟨hbefore, hafter, hplain⟩ := hinert a ha hanchorable url hurl
    exact ⟨hbefore, hafter, (resolved_of_web hweb hanchorable hurl).1, hplain⟩
  obtain ⟨pre', refs', hrefs, hpre, hrereads, -⟩ :=
    rereads_of_foldlM (List.nil_append _).symm hapart hfits h
  obtain rfl := List.forall₂_nil_left_iff.1 hpre
  rw [List.nil_append] at hrefs
  rw [hrefs]
  refine ⟨hrereads, fun hown origin' => anchorReferences_of_absolute (fun a' ha' => ?_) origin'⟩
  rw [hrefs] at ha'
  obtain ⟨a, ha, hread, hmem, -⟩ := exists_of_mem_right (forall₂_mem hrereads) ha'
  by_cases hanchorable : a.isAnchorable = true
  · have habsolute := (resolved_of_web hweb hanchorable (hread.resolved hanchorable)).2
      (hown a ha hanchorable)
    simp [isAnchorable, habsolute]
  · have hkept := hread.kept (by simpa using hanchorable)
    rw [isAnchorable, hkept, ← isAnchorable]
    simpa using hanchorable

/-- A call with blanks, a string with brackets, and a fragment. -/
theorem findAll_anchored_set :
    let value := "url( a.png ) image-set('b(1)' 1x, url(\"#c\") 2x)".toList
    let origin := "http://h/x/s".toList
    let out := "url( http://h/x/a.png ) image-set('http://h/x/b(1)' 1x, url(\"#c\") 2x)".toList
    (findAll value).Pairwise Precedes ∧ anchorReferences value origin = .ok out ∧
      List.Forall₂ (Rereads origin) (findAll value) (findAll out) ∧
      anchorReferences out "https://g/t".toList = .ok out := by
  intro value origin out
  have hfound : findAll value = [⟨"url( a.png )".toList, "a.png".toList, none, 5, 10⟩,
      ⟨"'b(1)'".toList, "b(1)".toList, some '\x27', 24, 28⟩,
      ⟨"url(\"#c\")".toList, "#c".toList, some '\x22', 39, 41⟩] := rfl
  have hout : anchorReferences value origin = .ok out := rfl
  have hapart : (findAll value).Pairwise Precedes := by
    rw [hfound]
    decide
  have hweb : ∃ parts, UrlParts.parse origin = .ok parts ∧
      (parts.scheme = "http".toList ∨ parts.scheme = "https".toList) := ⟨_, rfl, .inl rfl⟩
  have hpng : resolveReference "a.png".toList origin = .ok "http://h/x/a.png".toList :=
    rfl
  have hbrackets : resolveReference "b(1)".toList origin = .ok "http://h/x/b(1)".toList :=
    rfl
  have hinert : ∀ a ∈ findAll value, a.isAnchorable = true → ∀ url,
      resolveReference a.url origin = .ok url →
        Inert a.url ∧ Inert url ∧ (a.quote = none → Text.All isBareChar url) := by
    intro a ha hanchorable url hurl
    rw [hfound] at ha
    simp only [List.mem_cons, List.not_mem_nil, or_false] at ha
    rcases ha with rfl | rfl | rfl
    · obtain rfl := Except.ok.inj (hpng.symm.trans hurl)
      exact ⟨by decide, by decide, fun _ => by unfold Text.All; decide⟩
    · obtain rfl := Except.ok.inj (hbrackets.symm.trans hurl)
      exact ⟨by decide, by decide, fun hno => by cases hno⟩
    · cases hanchorable
  have hown : ∀ a ∈ findAll value, a.isAnchorable = true →
      UrlParts.cutScheme? (UrlParts.cleaned a.url) = none := by
    rw [hfound]
    decide
  obtain ⟨hreads, hagain⟩ := findAll_anchored hapart hweb hinert hout
  exact ⟨hapart, hout, hreads, hagain hown _⟩

/-- A quote in the address of the document ends the strings that get it too early, so that what is
read in the result is resolved once more. -/
theorem quoted_origin_misread :
    let value := "image-set('a' 1x,'b' 2x)".toList
    let origin := "http://h/it's/s".toList
    let out := "image-set('http://h/it's/a' 1x,'http://h/it's/b' 2x)".toList
    (∃ t, Sheet.parse ("p\x7bv:".toList ++ value ++ ['\x7d']) = .ok t ∧
      (Node.declarations t.children).map Declaration.value = [value]) ∧
    (findAll value).Pairwise Precedes ∧ OnWeb origin ∧ anchorReferences value origin = .ok out ∧
    ¬ List.Forall₂ (Rereads origin) (findAll value) (findAll out) ∧
    anchorReferences out origin ≠ .ok out := by
  intro value origin out
  have hparse : Sheet.parse ("p\x7bv:".toList ++ value ++ ['\x7d']) =
      .ok ⟨[.block [] (.rule ['p'] []) [.declaration ⟨['v'], value, [], [':'], [], false⟩] []], [],
        none⟩ :=
    parse_eq_ok_iff.2 ⟨rfl, .cons rfl (.cons rfl (.cons rfl (.cons rfl (.nil []))))⟩
  refine ⟨⟨_, hparse, rfl⟩, by decide, by decide, rfl, fun hreads => ?_, by decide⟩
  -- two references become three
  have hlength : (findAll value).length ≠ (findAll out).length := by decide
  exact hlength hreads.length_eq

end AssetRef

end StyleSplice
