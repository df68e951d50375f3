import StyleSplice.Proofs.Asset.Scan
import StyleSplice.Proofs.Import.Tokens

/-!
# How references are found

A call is found by its form, an image set at its word alone. The finders pass over any text in which
neither begins, whatever that text means to the reader of sheets.
-/

namespace StyleSplice

/-- A property of each character of a text is decided along the text, not over all characters. -/
instance Text.decidableForallMem {p : Char → Prop} [DecidablePred p] (s : Text) :
    Decidable (∀ c ∈ s, p c) :=
  List.decidableBAll p s

namespace AssetRef

variable {at₀ depth : Nat} {s t w x word rest value : Text} {a : AssetRef} {f : Text → Option Text}

/-- Nowhere in the text `x` in front of `s` does something begin that `f` finds. -/
def Nowhere (f : Text → Option Text) : Text → Text → Prop
  | [], _ => True
  | c :: x, s => f (c :: (x ++ s)) = none ∧ Nowhere f x s

instance (f : Text → Option Text) : (x s : Text) → Decidable (Nowhere f x s)
  | [], _ => .isTrue trivial
  | c :: x, s =>
    have := instDecidableNowhere f x s
    inferInstanceAs (Decidable (f (c :: (x ++ s)) = none ∧ Nowhere f x s))

theorem nowhere_iff : Nowhere f x s ↔ ∀ u t, x = u ++ t → t ≠ [] → f (t ++ s) = none := by
  induction x with
  | nil =>
    refine iff_of_true trivial fun u t h ht => ?_
    exact absurd (List.append_eq_nil_iff.1 h.symm).2 ht
  | cons c x ih =>
    rw [Nowhere, ih]
    constructor
    · rintro ⟨hhead, hlater⟩ (_ | ⟨d, u⟩) t h ht
      · rw [← h.trans (List.nil_append t)]
        exact hhead
      · exact hlater u t (List.cons_eq_cons.1 h).2 ht
    · intro h
      exact ⟨h [] (c :: x) rfl (by simp), fun u t hx ht => h (c :: u) t (by rw [hx]; rfl) ht⟩

/-- The words of both kinds of image sets end in the short one. -/
theorem IsSetWord.exists_short (h : IsSetWord word) :
    ∃ u v, word = u ++ v ∧ IsWord "image-set(".toList v := by
  rcases h with h | h
  · have hparts : IsWord ("-webkit-".toList ++ "image-set(".toList) word := h
    obtain ⟨u, v, rfl, -, hv⟩ := hparts.split
    exact ⟨u, v, rfl, hv⟩
  · exact ⟨[], word, rfl, h⟩

theorem IsSetWord.ne_nil (h : IsSetWord word) : word ≠ [] := by
  rintro rfl
  revert h
  decide

theorem CallForm.raw_ne_nil (h : CallForm at₀ s a rest) : a.raw ≠ [] := by
  cases h <;> simp

theorem afterWord?_barrier {c : Char} (hc : ∀ k ∈ w, isLetter k c = false) (s r : Text) :
    afterWord? w (s ++ c :: r) = (afterWord? w s).map (· ++ c :: r) := by
  induction w generalizing s with
  | nil => rfl
  | cons k w ih =>
    have hlater := ih fun k' hk => hc k' (List.mem_cons_of_mem k hk)
    cases s with
    | nil => simp [afterWord?, hc k List.mem_cons_self]
    | cons d s =>
      rw [List.cons_append, afterWord?, afterWord?, hlater]
      split <;> rfl

/-- The character is in no word of a reference. -/
def IsBarrier (c : Char) : Prop :=
  ∀ k ∈ "url(".toList ++ "-webkit-image-set(".toList, isLetter k c = false

instance (c : Char) : Decidable (IsBarrier c) := inferInstanceAs (Decidable (∀ k ∈ _, _))

theorem isBarrier_closing : IsBarrier ')' := by decide

theorem urlWord?_barrier {c : Char} (hc : IsBarrier c) (s r : Text) :
    afterWord? "url(".toList (s ++ c :: r) = (afterWord? "url(".toList s).map (· ++ c :: r) :=
  afterWord?_barrier (fun k hk => hc k (List.mem_append_left _ hk)) s r

theorem imageSet?_barrier {c : Char} (hc : IsBarrier c) (s r : Text) :
    imageSet? (s ++ c :: r) = (imageSet? s).map (· ++ c :: r) := by
  have hlong : ∀ k ∈ "-webkit-image-set(".toList, isLetter k c = false :=
    fun k hk => hc k (List.mem_append_right _ hk)
  have hshort : ∀ k ∈ "image-set(".toList, isLetter k c = false :=
    fun k hk => hlong k (List.mem_append_right "-webkit-".toList hk)
  rw [imageSet?, imageSet?, afterWord?_barrier hlong, afterWord?_barrier hshort]
  cases afterWord? "-webkit-image-set(".toList s <;> rfl

/-- Nothing behind a character that is in no word helps to find one. -/
theorem Nowhere.barrier {f : Text → Option Text} {c : Char}
    (hf : ∀ s r, f (s ++ c :: r) = (f s).map (· ++ c :: r)) (h : Nowhere f x s) (r : Text) :
    Nowhere f x (s ++ c :: r) := by
  induction x with
  | nil => trivial
  | cons d x ih =>
    refine ⟨?_, ih h.2⟩
    have hnone := h.1
    rw [← List.append_assoc, ← List.cons_append, hf, hnone]
    rfl

/-- No word of a reference begins in the text `x` in front of `s`. -/
def Silent (x s : Text) : Prop := Nowhere (afterWord? "url(".toList) x s ∧ Nowhere imageSet? x s

instance (x s : Text) : Decidable (Silent x s) := inferInstanceAs (Decidable (_ ∧ _))

theorem Silent.barrier {c : Char} (hc : IsBarrier c) (h : Silent x s) (r : Text) :
    Silent x (s ++ c :: r) :=
  ⟨h.1.barrier (urlWord?_barrier hc) r, h.2.barrier (imageSet?_barrier hc) r⟩

theorem quiet_callAt (h : Nowhere (afterWord? "url(".toList) x s) : Quiet callAt x s :=
  fun n u t hx ht => by
    rw [callAt, urlCall?, nowhere_iff.1 h u t hx ht]
    rfl

theorem quiet_setAt (h : Nowhere imageSet? x s) : Quiet setAt x s := fun n u t hx ht => by
  rw [setAt, nowhere_iff.1 h u t hx ht]
  rfl

theorem quiet_stringAt (h : ∀ c ∈ x, isQuote c = false) : Quiet stringAt x s := by
  rintro n u t rfl ht
  obtain ⟨c, t, rfl⟩ := List.exists_cons_of_ne_nil ht
  rw [List.cons_append, stringAt, if_neg (by simp [h c])]

/-- A text in which no call begins is passed over. -/
theorem urlCalls_nowhere (h : Nowhere (afterWord? "url(".toList) x s) :
    urlCalls at₀ 0 (x ++ s) = urlCalls (at₀ + x.length) 0 s := by
  rw [urlCalls_eq_scan, urlCalls_eq_scan, scan_quiet (quiet_callAt h)]

theorem imageSets_nowhere (h : Nowhere imageSet? x s) :
    imageSets at₀ 0 (x ++ s) = imageSets (at₀ + x.length) 0 s := by
  rw [imageSets_eq_scan, imageSets_eq_scan, scan_quiet (quiet_setAt h)]

/-- A text without quotes is passed over. -/
theorem strings_clear (h : ∀ c ∈ x, isQuote c = false) :
    strings at₀ 0 (x ++ s) = strings (at₀ + x.length) 0 s := by
  rw [strings_eq_scan, strings_eq_scan, scan_quiet (quiet_stringAt h)]

theorem urlCalls_form (h : CallForm at₀ s a rest) :
    urlCalls at₀ 0 s = (a, at₀, at₀ + a.raw.length) :: urlCalls (at₀ + a.raw.length) 0 rest := by
  have hfound : callAt at₀ s = some ((a, at₀, at₀ + a.raw.length), a.raw.length) := by
    rw [callAt, urlCall?_of_form h]
    rfl
  rw [← h.raw_append] at hfound
  rw [urlCalls_eq_scan, urlCalls_eq_scan, ← h.raw_append, scan_found h.raw_ne_nil hfound]

theorem imageSets_word (h : IsSetWord word) (inner : Text) :
    imageSets at₀ 0 (word ++ inner) =
      (at₀ + word.length, inner.take (closedLength 0 inner)) ::
        imageSets (at₀ + word.length) 0 inner := by
  have hfound : setAt at₀ (word ++ inner) =
      some ((at₀ + word.length, inner.take (closedLength 0 inner)), word.length) := by
    rw [setAt, imageSet?_of_isSetWord h, Option.map_some, List.length_append, Nat.add_sub_cancel]
  rw [imageSets_eq_scan, imageSets_eq_scan, scan_found h.ne_nil hfound]

theorem strings_quoted {q : Char} {url : Text} (hq : isQuote q = true) (hurl : q ∉ url) :
    strings at₀ 0 (q :: (url ++ q :: s)) =
      ⟨q :: url ++ [q], url, some q, at₀ + 1, at₀ + 1 + url.length⟩ ::
        strings (at₀ + url.length + 2) 0 s := by
  have hcut : Text.cutAt (· == q) (url ++ q :: s) = some (url, s) := Text.cutAt_of_notMem hurl s
  have hlength : (q :: (url ++ [q])).length = url.length + 2 := by
    rw [List.length_cons, List.length_append, List.length_singleton]
  have hfound : stringAt at₀ (q :: (url ++ [q]) ++ s) =
      some (⟨q :: url ++ [q], url, some q, at₀ + 1, at₀ + 1 + url.length⟩,
        (q :: (url ++ [q])).length) := by
    rw [List.cons_append, List.append_assoc, List.singleton_append, stringAt, if_pos hq, hcut,
      hlength]
    rfl
  have hall := scan_found (List.cons_ne_nil _ _) hfound
  rw [hlength, List.cons_append, List.append_assoc, List.singleton_append] at hall
  rw [strings_eq_scan, strings_eq_scan, hall, ← Nat.add_assoc at₀ url.length]

/-- Every call that is found stands in the text. -/
theorem exists_form_of_mem_urlCalls {skip : Nat} {y : AssetRef × Nat × Nat}
    (h : y ∈ urlCalls at₀ skip s) :
    ∃ front s' rest, s = front ++ s' ∧ CallForm (at₀ + front.length) s' y.1 rest ∧
      y.2.1 = at₀ + front.length ∧ y.2.2 = at₀ + front.length + y.1.raw.length := by
  rw [urlCalls_eq_scan] at h
  obtain ⟨front, s', n, rfl, hfound⟩ := exists_of_mem_scan h
  obtain ⟨⟨a, rest⟩, hcall, hy⟩ := Option.map_eq_some_iff.1 hfound
  cases hy
  exact ⟨front, s', rest, rfl, form_of_urlCall? hcall, rfl, rfl⟩

/-- The bracket of a word is its last character, and the only one with a meaning of its own. -/
theorem exists_bracket_of_isWord {w : Text} (hw : ∀ k ∈ w, isMild k = true)
    (h : IsWord (w ++ ['(']) word) : ∃ u, word = u ++ ['('] ∧ ∀ c ∈ u, isMild c = true := by
  obtain ⟨u, u', rfl, hu, hu'⟩ := h.split
  obtain ⟨v, rfl, hmild⟩ := exists_mild_of_afterWord? hw hu
  obtain ⟨c, rfl⟩ := List.length_eq_one_iff.1 hu'.length_eq
  have hc : isLetter '(' c = true := by
    by_contra hno
    simp [IsWord, afterWord?, hno] at hu'
  exact ⟨v, by rw [isLetter_bracket hc, List.append_nil], hmild⟩

theorem exists_bracket_of_call (h : IsWord "url(".toList word) :
    ∃ u, word = u ++ ['('] ∧ ∀ c ∈ u, isMild c = true :=
  exists_bracket_of_isWord (w := "url".toList) (by decide) h

theorem IsSetWord.exists_bracket (h : IsSetWord word) :
    ∃ u, word = u ++ ['('] ∧ ∀ c ∈ u, isMild c = true := by
  rcases h with h | h
  · exact exists_bracket_of_isWord (w := "-webkit-image-set".toList) (by decide) h
  · exact exists_bracket_of_isWord (w := "image-set".toList) (by decide) h

theorem bracket_notMem (h : ∀ c ∈ s, isMild c = true) : '(' ∉ s :=
  fun hmem => absurd (h '(' hmem) (by decide)

/-- Words of image sets that share a place are one and end alike: a word has one bracket, at its
end. -/
theorem IsSetWord.eq_of_overlap {word' front inner inner' : Text} (h : IsSetWord word)
    (h' : IsSetWord word') (hs : front ++ (word ++ inner) = word' ++ inner')
    (hlt : front.length < word'.length) : word' = front ++ word ∧ inner' = inner := by
  obtain ⟨u', rfl, hu'⟩ := h'.exists_bracket
  obtain ⟨u, rfl, hu⟩ := h.exists_bracket
  have hprefix : front <+: u' := by
    refine List.prefix_of_prefix_length_le ⟨_, hs⟩ ⟨['('] ++ inner', by rw [List.append_assoc]⟩ ?_
    rw [List.length_append, List.length_singleton] at hlt
    omega
  obtain ⟨v, rfl⟩ := hprefix
  have hv : '(' ∉ v := fun hmem => bracket_notMem hu' (List.mem_append_right _ hmem)
  have heq : u ++ '(' :: inner = v ++ '(' :: inner' := by simpa using hs
  obtain ⟨rfl, rfl⟩ := Text.eq_of_notMem (bracket_notMem hu) hv heq
  exact ⟨List.append_assoc _ _ _, rfl⟩

/-- No image set is missed: the finder comes to every place where the word stands. -/
theorem mem_imageSets_of_isWord {skip : Nat} {front inner : Text}
    (hword : IsWord "image-set(".toList word) (hskip : skip ≤ front.length)
    (hs : s = front ++ (word ++ inner)) :
    (at₀ + front.length + word.length, inner.take (closedLength 0 inner)) ∈
      imageSets at₀ skip s := by
  have hset : IsSetWord word := .inr hword
  have hcons : ∀ {at₀ : Nat} {d : Char} {front : Text} {L : List (Nat × Text)},
      (at₀ + 1 + front.length + word.length, inner.take (closedLength 0 inner)) ∈ L →
      (at₀ + (d :: front).length + word.length, inner.take (closedLength 0 inner)) ∈ L := by
    intro at₀ d front L hmem
    rwa [List.length_cons, Nat.add_comm front.length, ← Nat.add_assoc at₀]
  fun_induction imageSets at₀ skip s generalizing front with
  | case1 =>
    have hnil := (List.append_eq_nil_iff.1 hs.symm).2
    exact absurd (List.append_eq_nil_iff.1 hnil).1 hset.ne_nil
  | case2 at₀ skip c r ih =>
    cases front with
    | nil => cases hskip
    | cons d front =>
      exact hcons (ih (Nat.le_of_succ_le_succ hskip) (List.cons_eq_cons.1 hs).2)
  | case3 at₀ c r inner' hfound opened =>
    rename_i ih
    obtain ⟨word', hs', hword'⟩ := exists_isSetWord hfound
    have hlength := congrArg List.length hs'
    simp only [List.length_cons, List.length_append] at hlength
    have hopened : opened = word'.length := by
      simp only [opened]
      omega
    by_cases hover : word'.length ≤ front.length
    · cases front with
      | nil => exact absurd (List.length_eq_zero_iff.1 (Nat.le_zero.1 hover)) hword'.ne_nil
      | cons d front =>
        rw [List.length_cons] at hover
        exact List.mem_cons_of_mem _ (hcons (ih (by omega) (List.cons_eq_cons.1 hs).2))
    · obtain ⟨rfl, rfl⟩ := hset.eq_of_overlap hword' (hs.symm.trans hs') (by omega)
      refine List.mem_cons.2 (.inl ?_)
      rw [hopened, List.length_append, Nat.add_assoc]
  | case4 at₀ c r hnone ih =>
    cases front with
    | nil =>
      rw [hs, List.nil_append, imageSet?_of_isSetWord hset] at hnone
      cases hnone
    | cons d front => exact hcons (ih (Nat.zero_le _) (List.cons_eq_cons.1 hs).2)

end AssetRef

end StyleSplice
