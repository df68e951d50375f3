import StyleSplice.Asset.Reference
import StyleSplice.Proofs.Import.Retarget
import StyleSplice.Proofs.Text.Case

/-!
# The forms of calls and image sets

A `url()` call is its word and an address between blanks, in quotes or without, up to a closing
bracket. An image set begins with one of its two words. The finders find the texts of these forms,
and nothing else.
-/

namespace StyleSplice

theorem Import.exists_of_afterClosing? {s rest : Text} (h : afterClosing? s = some rest) :
    ∃ gap, Text.All isBlank gap ∧ s = gap ++ ')' :: rest := by
  unfold afterClosing? at h
  split at h
  · rename_i r hr
    cases h
    refine ⟨Text.leading isBlank s, Text.all_leading isBlank s, ?_⟩
    rw [← hr, Text.leading_append_trimStart]
  · cases h

namespace AssetRef

variable {at₀ : Nat} {s rest word : Text} {a : AssetRef}

/-- The `url()` calls in front of a text: with the address in quotes, up to the first quote that
blanks and a bracket follow, or without quotes. -/
inductive CallForm (at₀ : Nat) : Text → AssetRef → Text → Prop
  | quoted {word gap url gap' rest : Text} {q : Char} (named : IsWord "url(".toList word)
    (gaps : Text.All isBlank gap) (quote : isQuote q = true)
    (first : Import.quotedArgument? q url = none) (gaps' : Text.All isBlank gap') :
    CallForm at₀ (word ++ (gap ++ q :: (url ++ q :: (gap' ++ ')' :: rest))))
      ⟨word ++ (gap ++ q :: (url ++ q :: (gap' ++ [')']))), url, some q, at₀ + 4 + gap.length + 1,
        at₀ + 4 + gap.length + 1 + url.length⟩ rest
  | bare {word gap url gap' rest : Text} (named : IsWord "url(".toList word)
    (gaps : Text.All isBlank gap) (plain : Text.All isBareChar url) (gaps' : Text.All isBlank gap')
    (empty : url = [] → gap' = []) :
    CallForm at₀ (word ++ (gap ++ (url ++ (gap' ++ ')' :: rest))))
      ⟨word ++ (gap ++ (url ++ (gap' ++ [')']))), url, none, at₀ + 4 + gap.length,
        at₀ + 4 + gap.length + url.length⟩ rest

theorem isBareChar_iff {c : Char} :
    isBareChar c = true ↔ c ≠ ')' ∧ isQuote c = false ∧ isBlank c = false := by
  simp [isBareChar, and_assoc]

theorem CallForm.raw_append (h : CallForm at₀ s a rest) : a.raw ++ rest = s := by
  cases h <;> simp

theorem afterClosing?_gap {gap : Text} (h : Text.All isBlank gap) (rest : Text) :
    Import.afterClosing? (gap ++ ')' :: rest) = some rest := by
  have hclear : Text.Clear isBlank (')' :: rest) := Text.clear_cons.2 rfl
  rw [Import.afterClosing?, Text.trimStart_of_all h, Text.trimStart_of_clear hclear]
  rfl

theorem clear_isBareChar_closing {gap : Text} (h : Text.All isBlank gap) (rest : Text) :
    Text.Clear isBareChar (gap ++ ')' :: rest) := by
  cases gap with
  | nil => exact Text.clear_cons.2 rfl
  | cons c gap =>
    have hc : isBlank c = true := (Text.all_cons.1 h).1
    exact Text.clear_cons.2 (by simp [isBareChar, hc])

theorem urlCall?_of_form (h : CallForm at₀ s a rest) : urlCall? at₀ s = some (a, rest) := by
  have hraw : s.take (s.length - rest.length) = a.raw := by
    rw [← h.raw_append, List.length_append, Nat.add_sub_cancel, List.take_left]
  cases h with
  | @quoted word gap url gap' _ q named gaps quote first gaps' =>
    have hclear : Text.Clear isBlank (q :: (url ++ q :: (gap' ++ ')' :: rest))) :=
      Text.clear_cons.2 (isBlank_of_isQuote quote)
    have hquoted := Import.quotedArgument?_append quote first (afterClosing?_gap gaps' rest)
    unfold urlCall?
    rw [afterWord?_of_isWord named]
    dsimp only
    rw [Text.trimStart_of_all gaps, Text.trimStart_of_clear hclear, Text.leading_of_all gaps,
      Text.leading_of_clear hclear, List.append_nil]
    dsimp only
    rw [if_pos quote, hquoted]
    dsimp only
    rw [hraw]
  | @bare word gap url gap' _ named gaps plain gaps' empty =>
    have hclosing : Text.Clear isBareChar (gap' ++ ')' :: rest) :=
      clear_isBareChar_closing gaps' rest
    obtain ⟨c, r, hcons, hquote, hblank⟩ : ∃ c r, url ++ (gap' ++ ')' :: rest) = c :: r ∧
        isQuote c = false ∧ isBlank c = false := by
      cases url with
      | nil => exact ⟨')', rest, by rw [empty rfl]; rfl, rfl, rfl⟩
      | cons c url => exact ⟨c, _, rfl, (isBareChar_iff.1 (Text.all_cons.1 plain).1).2⟩
    have hclear : Text.Clear isBlank (url ++ (gap' ++ ')' :: rest)) := by
      rw [hcons]
      exact Text.clear_cons.2 hblank
    have htake : (url ++ (gap' ++ ')' :: rest)).takeWhile isBareChar = url := by
      have hurl := Text.leading_of_all plain (gap' ++ ')' :: rest)
      rwa [Text.leading_of_clear hclosing, List.append_nil] at hurl
    have hdrop : (url ++ (gap' ++ ')' :: rest)).dropWhile isBareChar = gap' ++ ')' :: rest := by
      have hurl := Text.trimStart_of_all plain (gap' ++ ')' :: rest)
      rwa [Text.trimStart_of_clear hclosing] at hurl
    unfold urlCall?
    rw [afterWord?_of_isWord named]
    dsimp only
    rw [Text.trimStart_of_all gaps, Text.trimStart_of_clear hclear, Text.leading_of_all gaps,
      Text.leading_of_clear hclear, List.append_nil, htake, hdrop, afterClosing?_gap gaps' rest]
    rw [hcons] at hraw ⊢
    dsimp only
    rw [if_neg (by simp [hquote]), Option.map_some, hraw]

/-- The argument goes up to the first place where it can end. -/
theorem quotedArgument?_url {q : Char} {url : Text}
    (h : Import.quotedArgument? q s = some (url, rest)) : Import.quotedArgument? q url = none := by
  induction s generalizing url with
  | nil => cases h
  | cons c s ih =>
    unfold Import.quotedArgument? at h
    split at h
    · rename_i hc
      split at h
      · cases h
        rfl
      · rename_i hopen
        obtain ⟨u, rfl, hu⟩ := Text.consPart_eq_some_iff.1 h
        obtain ⟨tail, rfl, -⟩ := Import.exists_of_quotedArgument? hu
        have hclosing : Import.afterClosing? u = none := by
          cases hclose : Import.afterClosing? u with
          | none => rfl
          | some r =>
            obtain ⟨gap, hgap, rfl⟩ := Import.exists_of_afterClosing? hclose
            rw [List.append_assoc, List.cons_append, afterClosing?_gap hgap] at hopen
            cases hopen
        rw [Import.quotedArgument?, if_pos hc, hclosing, ih hu]
        rfl
    · rename_i hc
      obtain ⟨u, rfl, hu⟩ := Text.consPart_eq_some_iff.1 h
      rw [Import.quotedArgument?, if_neg hc, ih hu]
      rfl

theorem form_of_urlCall? (h : urlCall? at₀ s = some (a, rest)) : CallForm at₀ s a rest := by
  suffices hform : ∃ b, CallForm at₀ s b rest by
    obtain ⟨b, hb⟩ := hform
    rw [urlCall?_of_form hb] at h
    cases h
    exact hb
  unfold urlCall? at h
  split at h
  · cases h
  · rename_i inner hinner
    obtain ⟨word, rfl, hword⟩ := exists_isWord_of_afterWord? hinner
    obtain ⟨gap, arg, harg, rfl, hgaps, hclear⟩ : ∃ gap arg, Text.trimStart isBlank inner = arg ∧
        inner = gap ++ arg ∧ Text.All isBlank gap ∧ Text.Clear isBlank arg :=
      ⟨_, _, rfl, (Text.leading_append_trimStart isBlank inner).symm,
        Text.all_leading isBlank inner, Text.clear_trimStart isBlank inner⟩
    rw [harg] at h
    have hbare : ∀ {r : Text}, Import.afterClosing? (arg.dropWhile isBareChar) = some r →
        ∃ b, CallForm at₀ (word ++ (gap ++ arg)) b r := by
      intro r hr
      obtain ⟨gap', hgap', hdrop⟩ := Import.exists_of_afterClosing? hr
      have hsplit : arg = arg.takeWhile isBareChar ++ (gap' ++ ')' :: r) := by
        rw [← hdrop, List.takeWhile_append_dropWhile]
      have hempty : arg.takeWhile isBareChar = [] → gap' = [] := by
        intro hnil
        rw [hnil, List.nil_append] at hsplit
        cases gap' with
        | nil => rfl
        | cons c gap' =>
          rw [hsplit, List.cons_append, Text.clear_cons] at hclear
          rw [(Text.all_cons.1 hgap').1] at hclear
          cases hclear
      rw [hsplit]
      exact ⟨_, .bare hword hgaps (Text.all_leading isBareChar arg) hgap' hempty⟩
    dsimp only at h
    split at h
    · rename_i q r
      split at h
      · rename_i hq
        split at h
        · rename_i url rest' hquoted
          cases h
          obtain ⟨tail, rfl, htail⟩ := Import.exists_of_quotedArgument? hquoted
          obtain ⟨gap', hgap', rfl⟩ := Import.exists_of_afterClosing? htail
          exact ⟨_, .quoted hword hgaps hq (quotedArgument?_url hquoted) hgap'⟩
        · obtain ⟨r', hr', hfound⟩ := Option.map_eq_some_iff.1 h
          cases hfound
          exact hbare hr'
      · obtain ⟨r', hr', hfound⟩ := Option.map_eq_some_iff.1 h
        cases hfound
        exact hbare hr'
    · cases h

/-- The address of a call stands between its word and its bracket. -/
theorem CallForm.exists_around (h : CallForm at₀ s a rest) :
    ∃ front back, a.raw = front ++ (a.url ++ back) ∧ front ≠ [] ∧ back ≠ [] ∧
      a.start = at₀ + front.length ∧ a.stop = a.start + a.url.length := by
  cases h with
  | @quoted word gap url gap' _ q named gaps quote first gaps' =>
    have hlength : word.length = 4 := named.length_eq
    exact ⟨word ++ (gap ++ [q]), q :: (gap' ++ [')']), by simp, by simp, by simp,
      by simp [hlength, Nat.add_assoc], rfl⟩
  | @bare word gap url gap' _ named gaps plain gaps' empty =>
    have hlength : word.length = 4 := named.length_eq
    refine ⟨word ++ gap, gap' ++ [')'], by simp, ?_, by simp, by simp [hlength, Nat.add_assoc], rfl⟩
    rintro hnil
    rw [(List.append_eq_nil_iff.1 hnil).1] at hlength
    cases hlength

/-- The word of an image set, with its bracket. -/
def IsSetWord (word : Text) : Prop :=
  IsWord "-webkit-image-set(".toList word ∨ IsWord "image-set(".toList word

instance (word : Text) : Decidable (IsSetWord word) :=
  inferInstanceAs (Decidable (IsWord _ word ∨ IsWord _ word))

/-- No character is both an `i` and a hyphen. -/
theorem isLetter_hyphen {c : Char} (h : isLetter 'i' c = true) : isLetter '-' c = false := by
  rcases toLower_or_of_isLetter h with hc | ⟨-, rfl | rfl⟩ | ⟨hk, -⟩ | ⟨hk, -⟩
  · simp [isLetter, hc]
  · decide
  · decide
  · exact absurd hk (by decide)
  · exact absurd hk (by decide)

theorem imageSet?_of_isSetWord (h : IsSetWord word) (inner : Text) :
    imageSet? (word ++ inner) = some inner := by
  rcases h with h | h
  · rw [imageSet?, afterWord?_of_isWord h]
  · have hnone : afterWord? "-webkit-image-set(".toList (word ++ inner) = none := by
      cases word with
      | nil => cases h
      | cons c word =>
        unfold IsWord at h
        obtain ⟨hc, -⟩ : isLetter 'i' c = true ∧ _ := by
          rw [show "image-set(".toList = 'i' :: "mage-set(".toList from rfl, afterWord?] at h
          split at h
          · exact ⟨by assumption, h⟩
          · cases h
        rw [show "-webkit-image-set(".toList = '-' :: "webkit-image-set(".toList from rfl,
          List.cons_append, afterWord?, if_neg (by simp [isLetter_hyphen hc])]
    rw [imageSet?, hnone, afterWord?_of_isWord h]

theorem exists_isSetWord {inner : Text} (h : imageSet? s = some inner) :
    ∃ word, s = word ++ inner ∧ IsSetWord word := by
  unfold imageSet? at h
  split at h
  · rename_i r hr
    cases h
    obtain ⟨word, rfl, hword⟩ := exists_isWord_of_afterWord? hr
    exact ⟨word, rfl, .inl hword⟩
  · obtain ⟨word, rfl, hword⟩ := exists_isWord_of_afterWord? h
    exact ⟨word, rfl, .inr hword⟩

end AssetRef

end StyleSplice
