import StyleSplice.Sheet.Parser

/-!
# White space around the parts

What the cuts of white space do at the seams of a text: characters that are cut away on either side
do not change what is left, and white space ends at the same place however a text was put together.
-/

namespace StyleSplice

namespace Text

variable {p : Char → Bool} {a b s t u v : Text}

/-- Every character satisfies `p`. -/
def All (p : Char → Bool) (s : Text) : Prop := ∀ c ∈ s, p c = true

/-- No character that satisfies `p` stands at the front. -/
def Clear (p : Char → Bool) (s : Text) : Prop := ∀ c, s.head? = some c → p c = false

/-- Nothing can be cut off at either end. -/
def Trimmed (p : Char → Bool) (s : Text) : Prop := Clear p s ∧ trimEnd p s = s

@[simp] theorem all_nil : All p [] := by simp [All]

@[simp] theorem all_cons {c : Char} : All p (c :: s) ↔ p c = true ∧ All p s := by simp [All]

@[simp] theorem all_append : All p (s ++ t) ↔ All p s ∧ All p t := by
  simp [All, or_imp, forall_and]

@[simp] theorem clear_nil : Clear p [] := by simp [Clear]

@[simp] theorem clear_cons {c : Char} : Clear p (c :: s) ↔ p c = false := by simp [Clear]

instance : (s : Text) → Decidable (Clear p s)
  | [] => .isTrue clear_nil
  | _ :: _ => decidable_of_iff _ clear_cons.symm

instance : Decidable (Trimmed p s) := inferInstanceAs (Decidable (Clear p s ∧ trimEnd p s = s))

/-- What may follow a text that is not empty makes no difference to its front. -/
theorem Clear.append (h : Clear p s) (hs : s ≠ []) (t : Text) : Clear p (s ++ t) := by
  cases s with
  | nil => exact absurd rfl hs
  | cons c s => simpa using h

theorem Clear.of_append (h : Clear p (s ++ t)) : Clear p s := by
  cases s with
  | nil => simp
  | cons c s => simpa using h

theorem clear_append (hs : Clear p s) (ht : Clear p t) : Clear p (s ++ t) := by
  cases s with
  | nil => exact ht
  | cons c s => simpa using hs

theorem all_leading (p : Char → Bool) (s : Text) : All p (leading p s) := by
  induction s with
  | nil => simp [leading]
  | cons c s ih =>
    by_cases hc : p c <;> simp_all [leading]

theorem clear_trimStart (p : Char → Bool) (s : Text) : Clear p (trimStart p s) := by
  induction s with
  | nil => simp [trimStart]
  | cons c s ih =>
    by_cases hc : p c <;> simp_all [trimStart]

theorem trimStart_of_all (h : All p a) (s : Text) : trimStart p (a ++ s) = trimStart p s :=
  List.dropWhile_append_of_pos h

theorem trimStart_of_clear (h : Clear p s) : trimStart p s = s := by
  cases s with
  | nil => rfl
  | cons c s => simp_all [trimStart]

theorem leading_of_all (h : All p a) (s : Text) : leading p (a ++ s) = a ++ leading p s :=
  List.takeWhile_append_of_pos h

theorem leading_of_clear (h : Clear p s) : leading p s = [] := by
  cases s with
  | nil => rfl
  | cons c s => simp_all [leading]

/-- White space ends at one place only. -/
theorem append_cancel (ha : All p a) (hb : All p b) (hu : Clear p u) (hv : Clear p v)
    (h : a ++ u = b ++ v) : a = b ∧ u = v := by
  have hab : a = b := by
    have := congrArg (leading p) h
    simpa [leading_of_all ha, leading_of_all hb, leading_of_clear hu, leading_of_clear hv]
      using this
  subst hab
  exact ⟨rfl, List.append_cancel_left h⟩

theorem trimEnd_of_all (h : All p a) : trimEnd p a = [] := by
  induction a with
  | nil => rfl
  | cons c a ih => simp_all [trimEnd]

theorem trimEnd_append_of_all (s : Text) (h : All p a) : trimEnd p (s ++ a) = trimEnd p s := by
  induction s with
  | nil => simp [trimEnd_of_all h, trimEnd]
  | cons c s ih => simp [trimEnd, ih]

theorem all_trailing (p : Char → Bool) (s : Text) : All p (trailing p s) := by
  induction s with
  | nil => simp [trailing]
  | cons c s ih =>
    unfold trailing trimEnd
    split
    · rename_i hnil
      have hs : All p s := by simpa [trailing, hnil] using ih
      split <;> simp_all
    · simpa [trailing] using ih

theorem trimEnd_trimEnd (p : Char → Bool) (s : Text) : trimEnd p (trimEnd p s) = trimEnd p s := by
  have h := trimEnd_append_of_all (trimEnd p s) (all_trailing p s)
  rw [trimEnd_append_trailing] at h
  exact h.symm

/-- White space after a trimmed text is what is cut off. -/
theorem trailing_append_of_all (hs : trimEnd p s = s) (h : All p a) : trailing p (s ++ a) = a := by
  rw [trailing, trimEnd_append_of_all s h, hs, List.drop_left]

theorem trimEnd_cons {c : Char} (h : p c = false ∨ trimEnd p u ≠ []) :
    trimEnd p (c :: u) = c :: trimEnd p u := by
  rw [trimEnd]
  cases hu : trimEnd p u with
  | nil => simp [h.resolve_right (by simp [hu])]
  | cons a t => rfl

/-- A character in front of one that stays makes no difference to what trails. -/
theorem trailing_cons {c : Char} (h : p c = false ∨ trimEnd p u ≠ []) :
    trailing p (c :: u) = trailing p u := by
  rw [trailing, trimEnd_cons h, List.length_cons, List.drop_succ_cons, ← trailing]

theorem trailing_eq_self (h : trimEnd p u = []) : trailing p u = u := by
  rw [trailing, h, List.length_nil, List.drop_zero]

theorem clear_trimEnd (h : Clear p s) : Clear p (trimEnd p s) := by
  obtain ⟨t, ht⟩ := trimEnd_isPrefix p s
  intro c hc
  refine h c ?_
  rw [← ht, List.head?_append, hc]
  rfl

theorem trimmed_trim (p : Char → Bool) (s : Text) : Trimmed p (trim p s) :=
  ⟨clear_trimEnd (clear_trimStart p s), trimEnd_trimEnd p _⟩

/-- A trimmed text is what is left of it between white space. -/
theorem Trimmed.trim_eq (h : Trimmed p s) (ha : All p a) (hb : All p b) :
    trim p (a ++ (s ++ b)) = s := by
  unfold trim
  rw [trimStart_of_all ha]
  by_cases hs : s = []
  · subst hs
    have := trimStart_of_all (s := []) hb
    rw [List.append_nil] at this
    rw [List.nil_append, this]
    rfl
  · rw [trimStart_of_clear (h.1.append hs b), trimEnd_append_of_all s hb, h.2]

/-- A text is its trimmed part between white space. -/
theorem exists_trim (p : Char → Bool) (s : Text) :
    ∃ a b, All p a ∧ All p b ∧ s = a ++ (trim p s ++ b) :=
  ⟨leading p s, trailing p (trimStart p s), all_leading p s, all_trailing p _, by
    rw [trim, trimEnd_append_trailing, leading_append_trimStart]⟩

/-- If the text between white space is the same, then so is the white space in front of it, and
what follows it is cut at the place where white space ends. -/
theorem exists_seam {x k r : Text} (ha : All p a) (hb : All p b) (hu : All p u) (hx : Trimmed p x)
    (hr : Clear p r) (h : a ++ (x ++ b) ++ r = u ++ (x ++ k)) :
    ∃ g, All p g ∧ a ++ (x ++ b) = u ++ (x ++ g) ∧ k = g ++ r := by
  by_cases hnil : x = []
  · subst hnil
    simp only [List.nil_append] at h ⊢
    have hab : a ++ b = u ++ leading p k := by
      have := congrArg (leading p) h
      rwa [leading_of_all (all_append.2 ⟨ha, hb⟩), leading_of_all hu, leading_of_clear hr,
        List.append_nil] at this
    refine ⟨leading p k, all_leading p k, hab, ?_⟩
    rw [hab, List.append_assoc] at h
    exact (List.append_cancel_left h).symm
  · have h' : a ++ (x ++ (b ++ r)) = u ++ (x ++ k) := by simpa using h
    obtain ⟨rfl, hk⟩ := append_cancel ha hu (hx.1.append hnil _) (hx.1.append hnil _) h'
    exact ⟨b, hb, rfl, (List.append_cancel_left hk).symm⟩

end Text

end StyleSplice
