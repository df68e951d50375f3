import StyleSplice.Text.Case

/-!
# Words in any case

A word is looked for in two ways: in the lower case of a text, and by a comparison that ignores
case. Lower case makes a letter of ASCII only of that letter and its capital, two characters apart.
The comparison takes four characters beyond ASCII for letters as well, so it can find a word where
lower case shows none, but only in their company.
-/

namespace StyleSplice

/-- The characters of ASCII that lower case makes of characters of ASCII only: not the `k`, which
the Kelvin sign becomes as well. The null character, which no word holds, is left out. -/
def isSteady (k : Char) : Bool := k != '\x00' && (k != 'k' && k.toNat < 128)

/-- The text holds the word in letters of ASCII, small or capital. -/
def Text.Spells (w s : Text) : Prop :=
  ∃ front u rest, s = front ++ (u ++ rest) ∧ u.map Char.toLower = w

/-- The text is the word, case ignored. -/
def IsWord (w word : Text) : Prop := afterWord? w word = some []

instance (w word : Text) : Decidable (IsWord w word) :=
  inferInstanceAs (Decidable (afterWord? w word = some []))

/-- The text holds the word, case ignored. -/
def Text.Holds (w s : Text) : Prop :=
  ∃ front word rest, s = front ++ (word ++ rest) ∧ IsWord w word

variable {w s word rest : Text} {k c : Char}

theorem isSteady_iff : isSteady k = true ↔ k ≠ '\x00' ∧ k ≠ 'k' ∧ k.toNat < 128 := by
  simp [isSteady]

theorem toLower_of_le (h : 128 ≤ c.toNat) : c.toLower = c := by
  have hval : ¬ (c.val ≥ 'A'.val ∧ c.val ≤ 'Z'.val) := by
    rintro ⟨-, hle⟩
    have hle' : c.toNat ≤ 90 := hle
    omega
  exact dif_neg hval

/-- Beyond ASCII only the Kelvin sign has a lower case in ASCII. -/
theorem le_lowerBeyondAscii {n : Nat} (h : 128 ≤ n) :
    128 ≤ lowerBeyondAscii n ∨ lowerBeyondAscii n = 'k'.toNat := by
  have htable : (lowerRuns.all fun run => 128 ≤ run.2.2.2 ||
      run.1 == run.2.1 && run.2.2.2 == 'k'.toNat) = true := by decide
  unfold lowerBeyondAscii
  split
  · rename_i first last step form hfind
    have hrun := List.all_eq_true.1 htable _ (List.mem_of_find?_eq_some hfind)
    have hbounds := List.find?_some hfind
    simp only [Bool.or_eq_true, Bool.and_eq_true, decide_eq_true_eq, beq_iff_eq] at hrun hbounds
    split
    · rcases hrun with hform | ⟨rfl, rfl⟩
      · exact .inl (by omega)
      · exact .inr (by omega)
    · exact .inl h
  · exact .inl h

theorem ofNat_ne_of_isSteady (hk : isSteady k = true) {n : Nat}
    (h : 128 ≤ n ∨ n = 'k'.toNat) : Char.ofNat n ≠ k := by
  obtain ⟨hnull, hkelvin, hascii⟩ := isSteady_iff.1 hk
  rintro rfl
  rcases h with h | rfl
  · by_cases hvalid : n.isValidChar
    · rw [show Char.ofNat n = Char.ofNatAux n hvalid from dif_pos hvalid] at hascii
      exact absurd hascii (Nat.not_lt.2 h)
    · exact hnull (dif_neg hvalid)
  · exact hkelvin rfl

/-- A character becomes a steady one in lower case as it does in ASCII; only a dotted capital I
becomes two characters. -/
theorem lowerChar_cases (before after : Text) (c : Char) :
    (lowerChar before after c = ['i', '\u0307'] ∧ c = '\u0130') ∨
      ∃ d, lowerChar before after c = [d] ∧ ∀ k, isSteady k = true → (d = k ↔ c.toLower = k) := by
  unfold lowerChar
  extract_lets n
  by_cases hascii : n < 128
  · rw [if_pos hascii]
    exact .inr ⟨_, rfl, fun k _ => Iff.rfl⟩
  · rw [if_neg hascii]
    have hbeyond : ∀ {d : Char}, (∀ k, isSteady k = true → d ≠ k) →
        ∀ k, isSteady k = true → (d = k ↔ c.toLower = k) := by
      intro d hd k hk
      refine iff_of_false (hd k hk) fun hc => ?_
      rw [toLower_of_le (by omega)] at hc
      have := (isSteady_iff.1 hk).2.2
      subst hc
      exact hascii this
    by_cases hsigma : n = 0x3A3
    · rw [if_pos hsigma]
      refine .inr ⟨_, rfl, hbeyond fun k hk => ?_⟩
      rintro rfl
      have := (isSteady_iff.1 hk).2.2
      split at this <;> revert this <;> decide
    · rw [if_neg hsigma]
      by_cases hdotted : n = 0x130
      · rw [if_pos hdotted]
        exact .inl ⟨rfl, Char.ext (UInt32.toNat_inj.1 hdotted)⟩
      · rw [if_neg hdotted]
        exact .inr ⟨_, rfl, hbeyond fun k hk =>
          ofNat_ne_of_isSteady hk (le_lowerBeyondAscii (by omega))⟩

/-- A word of steady letters stands at the front of a text in lower case where it is spelled. -/
theorem isPrefix_lowerFrom_iff (hw : ∀ k ∈ w, isSteady k = true ∧ k ≠ 'i') {before : Text} :
    w <+: lowerFrom before s ↔ ∃ u rest, s = u ++ rest ∧ u.map Char.toLower = w := by
  induction w generalizing before s with
  | nil => exact iff_of_true List.nil_prefix ⟨[], s, rfl, rfl⟩
  | cons k w ih =>
    obtain ⟨hk, hki⟩ := hw k List.mem_cons_self
    have hw' := fun x hx => hw x (List.mem_cons_of_mem k hx)
    cases s with
    | nil =>
      refine iff_of_false (by simp [lowerFrom]) ?_
      rintro ⟨u, rest, hu, hmap⟩
      obtain ⟨rfl, -⟩ := List.append_eq_nil_iff.1 hu.symm
      cases hmap
    | cons c s =>
      have hcons : (∃ u rest, c :: s = u ++ rest ∧ u.map Char.toLower = k :: w) ↔
          c.toLower = k ∧ ∃ u rest, s = u ++ rest ∧ u.map Char.toLower = w := by
        constructor
        · rintro ⟨_ | ⟨x, u⟩, rest, hu, hmap⟩
          · cases hmap
          · obtain ⟨rfl, rfl⟩ := List.cons_eq_cons.1 hu
            obtain ⟨hx, hmap⟩ := List.cons_eq_cons.1 hmap
            exact ⟨hx, u, rest, rfl, hmap⟩
        · rintro ⟨hc, u, rest, rfl, hmap⟩
          exact ⟨c :: u, rest, rfl, by rw [List.map_cons, hc, hmap]⟩
      rw [hcons, lowerFrom]
      rcases lowerChar_cases before s c with ⟨hlower, rfl⟩ | ⟨d, hlower, hd⟩
      · rw [hlower, List.cons_append, List.cons_prefix_cons]
        refine iff_of_false (fun h => hki h.1) fun h => ?_
        have := (isSteady_iff.1 hk).2.2
        rw [← h.1] at this
        exact absurd this (by decide)
      · rw [hlower, List.singleton_append, List.cons_prefix_cons, ih hw', eq_comm, hd k hk]

/-- A word of steady letters with an `i` at its front at most is found in the lower case of a text
where it is spelled. -/
theorem isInfix_lowerFrom_iff (hk : isSteady k = true) (hne : w ≠ [])
    (hw : ∀ k ∈ w, isSteady k = true ∧ k ≠ 'i') (before : Text) :
    k :: w <:+: lowerFrom before s ↔ Text.Spells (k :: w) s := by
  have hnil : ¬ Text.Spells (k :: w) [] := by
    rintro ⟨front, u, rest, h, hmap⟩
    obtain ⟨rfl, h'⟩ := List.append_eq_nil_iff.1 h.symm
    obtain ⟨rfl, rfl⟩ := List.append_eq_nil_iff.1 h'
    cases hmap
  have hcons : ∀ c (s : Text), Text.Spells (k :: w) (c :: s) ↔
      (c.toLower = k ∧ ∃ u rest, s = u ++ rest ∧ u.map Char.toLower = w) ∨
        Text.Spells (k :: w) s := by
    intro c s
    constructor
    · rintro ⟨_ | ⟨x, front⟩, u, rest, h, hmap⟩
      · cases u with
        | nil => cases hmap
        | cons x u =>
          obtain ⟨rfl, rfl⟩ := List.cons_eq_cons.1 h
          obtain ⟨hx, hmap⟩ := List.cons_eq_cons.1 hmap
          exact .inl ⟨hx, u, rest, rfl, hmap⟩
      · obtain ⟨rfl, rfl⟩ := List.cons_eq_cons.1 h
        exact .inr ⟨front, u, rest, rfl, hmap⟩
    · rintro (⟨hc, u, rest, rfl, hmap⟩ | ⟨front, u, rest, rfl, hmap⟩)
      · exact ⟨[], c :: u, rest, rfl, by rw [List.map_cons, hc, hmap]⟩
      · exact ⟨c :: front, u, rest, rfl, hmap⟩
  induction s generalizing before with
  | nil => exact iff_of_false (by simp [lowerFrom]) hnil
  | cons c s ih =>
    have hlater : ∀ before, k :: w <:+: lowerFrom before s ↔ Text.Spells (k :: w) s := ih
    rw [hcons, lowerFrom]
    rcases lowerChar_cases before s c with ⟨hlower, rfl⟩ | ⟨d, hlower, hd⟩
    · -- the combining dot behind the small letter is no part of a word
      obtain ⟨x, w', rfl⟩ := List.exists_cons_of_ne_nil hne
      have hdot : ∀ x, isSteady x = true → x ≠ '\u0307' := by
        rintro x hx rfl
        cases hx
      have hx := hdot x (hw x List.mem_cons_self).1
      have hdotted : '\u0130' ≠ k := by
        rintro rfl
        cases hk
      rw [hlower, List.cons_append, List.cons_append, List.nil_append, List.infix_cons_iff,
        List.infix_cons_iff, hlater]
      simp [List.cons_prefix_cons, hx, hdot k hk, hdotted]
    · rw [hlower, List.singleton_append, List.infix_cons_iff, List.cons_prefix_cons, hlater,
        isPrefix_lowerFrom_iff hw, eq_comm, hd k hk]

theorem hasPart_iff : Text.hasPart w s = true ↔ w <:+: s := by
  induction s with
  | nil => simp [Text.hasPart]
  | cons c s ih => rw [Text.hasPart, Bool.or_eq_true, ih, List.isPrefixOf_iff_prefix,
      List.infix_cons_iff]

theorem afterWord?_of_isWord (h : IsWord w word) (rest : Text) :
    afterWord? w (word ++ rest) = some rest := by
  induction w generalizing word with
  | nil => cases h; rfl
  | cons k w ih =>
    cases word with
    | nil => cases h
    | cons c word =>
      unfold IsWord afterWord? at h
      split at h
      · rename_i hc
        rw [List.cons_append, afterWord?, if_pos hc, ih h]
      · cases h

theorem exists_isWord_of_afterWord? (h : afterWord? w s = some rest) :
    ∃ word, s = word ++ rest ∧ IsWord w word := by
  induction w generalizing s with
  | nil => cases h; exact ⟨[], rfl, rfl⟩
  | cons k w ih =>
    cases s with
    | nil => cases h
    | cons c s =>
      unfold afterWord? at h
      split at h
      · rename_i hc
        obtain ⟨word, rfl, hword⟩ := ih h
        exact ⟨c :: word, rfl, by rw [IsWord, afterWord?, if_pos hc]; exact hword⟩
      · cases h

theorem IsWord.length_eq (h : IsWord w word) : word.length = w.length := by
  simpa using length_of_afterWord? h

/-- A word made of two words is one behind the other. -/
theorem IsWord.split {w' : Text} (h : IsWord (w ++ w') word) :
    ∃ u u', word = u ++ u' ∧ IsWord w u ∧ IsWord w' u' := by
  induction w generalizing word with
  | nil => exact ⟨[], word, rfl, rfl, h⟩
  | cons k w ih =>
    cases word with
    | nil => cases h
    | cons c word =>
      unfold IsWord at h
      rw [List.cons_append, afterWord?] at h
      split at h
      · rename_i hc
        obtain ⟨u, u', rfl, hu, hu'⟩ := ih h
        exact ⟨c :: u, u', rfl, by rw [IsWord, afterWord?, if_pos hc]; exact hu, hu'⟩
      · cases h

/-- Case ignored, a character is the letter in small or capital form, or one of four others. -/
theorem toLower_or_of_isLetter (h : isLetter k c = true) :
    c.toLower = k ∨ (k = 'i' ∧ (c = '\u0130' ∨ c = '\u0131')) ∨ (k = 's' ∧ c = '\u017f') ∨
      (k = 'k' ∧ c = '\u212a') := by
  simpa [isLetter, or_assoc] using h

/-- A capital letter becomes a small one. -/
theorem isLower_toLower (h : c.val ≥ 'A'.val ∧ c.val ≤ 'Z'.val) : c.toLower.isLower = true := by
  rw [show c.toLower = ⟨c.val + ('a'.val - 'A'.val), _⟩ from dif_pos h]
  simp only [ge_iff_le, UInt32.le_iff_toNat_le] at h
  change (decide (c.val + ('a'.val - 'A'.val) ≥ 'a'.val) &&
    decide (c.val + ('a'.val - 'A'.val) ≤ 'z'.val)) = true
  simp only [ge_iff_le, UInt32.le_iff_toNat_le, UInt32.toNat_add, Bool.and_eq_true,
    decide_eq_true_eq]
  have hfirst : 65 ≤ c.val.toNat := h.1
  have hlast : c.val.toNat ≤ 90 := h.2
  have hstep : ('a'.val - 'A'.val).toNat = 32 := rfl
  have hsmall : 'a'.val.toNat = 97 ∧ 'z'.val.toNat = 122 := ⟨rfl, rfl⟩
  omega

/-- Only small letters are the lower case of another character. -/
theorem eq_of_toLower (hk : k.isLower = false) (h : c.toLower = k) : c = k := by
  by_cases hupper : c.val ≥ 'A'.val ∧ c.val ≤ 'Z'.val
  · have hlower := isLower_toLower hupper
    rw [h, hk] at hlower
    cases hlower
  · exact (dif_neg hupper).symm.trans h

theorem eq_of_isLetter (hk : k.isLower = false) (h : isLetter k c = true) : c = k := by
  rcases toLower_or_of_isLetter h with hc | ⟨rfl, -⟩ | ⟨rfl, -⟩ | ⟨rfl, -⟩
  · exact eq_of_toLower hk hc
  all_goals cases hk

/-- A word that holds none of the four other characters is spelled in letters of ASCII. -/
theorem IsWord.map_toLower (h : IsWord w word) (hc : ∀ k ∈ w, ∀ c ∈ word, isLetter k c = true →
    c.toLower = k) : word.map Char.toLower = w := by
  induction w generalizing word with
  | nil => cases h; rfl
  | cons k w ih =>
    cases word with
    | nil => cases h
    | cons c word =>
      unfold IsWord afterWord? at h
      split at h
      · rename_i hletter
        rw [List.map_cons, hc k (by simp) c (by simp) hletter,
          ih h fun x hx y hy => hc x (List.mem_cons_of_mem _ hx) y (List.mem_cons_of_mem _ hy)]
      · cases h

end StyleSplice
