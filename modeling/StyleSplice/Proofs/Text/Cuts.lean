import StyleSplice.Text.Basic

/-!
# Cuts at a character

Where a text is cut at the first or the last character of a kind: what stands in front of the cut
and behind it, and when there is no place to cut. Beside them stands what a text of joined parts is
made of.
-/

namespace StyleSplice

namespace Text

variable {p : Char → Bool} {s front back : Text}

theorem exists_of_cutAt (h : cutAt p s = some (front, back)) :
    ∃ c, p c = true ∧ s = front ++ c :: back ∧ ∀ x ∈ front, p x = false := by
  induction s generalizing front with
  | nil => cases h
  | cons c s ih =>
    unfold cutAt at h
    split at h
    · cases h
      exact ⟨c, by assumption, rfl, by simp⟩
    · obtain ⟨u, rfl, hu⟩ := consPart_eq_some_iff.1 h
      obtain ⟨c', hc, rfl, hfront⟩ := ih hu
      exact ⟨c', hc, rfl, by simp_all⟩

theorem cutAt_append {c : Char} (hc : p c = true)
    (h : ∀ x ∈ front, p x = false) : cutAt p (front ++ c :: back) = some (front, back) := by
  induction front with
  | nil => simp [cutAt, hc]
  | cons x front ih =>
    have hx := h x (by simp)
    simp [cutAt, hx, consPart, ih fun y hy => h y (List.mem_cons_of_mem _ hy)]

theorem cutAt_of_notMem {c : Char} (h : c ∉ front) (back : Text) :
    cutAt (· == c) (front ++ c :: back) = some (front, back) :=
  cutAt_append (by simp) fun _ hx => beq_eq_false_iff_ne.2 fun he => h (he ▸ hx)

/-- A text is cut in one way at the first place of a character. -/
theorem eq_of_notMem {c : Char} {s t u v : Text} (hu : c ∉ u) (hv : c ∉ v)
    (h : u ++ c :: s = v ++ c :: t) : u = v ∧ s = t := by
  have hcut := cutAt_of_notMem hu s
  rw [h, cutAt_of_notMem hv] at hcut
  cases hcut
  exact ⟨rfl, rfl⟩

theorem cutAt_eq_none_iff : cutAt p s = none ↔ ∀ c ∈ s, p c = false := by
  refine ⟨fun h c hc => ?_, fun h => ?_⟩
  · induction s with
    | nil => cases hc
    | cons x s ih =>
      unfold cutAt at h
      split at h
      · cases h
      · rename_i hx
        rcases List.mem_cons.1 hc with rfl | hc
        · simpa using hx
        · refine ih ?_ hc
          cases hcut : cutAt p s with
          | none => rfl
          | some x => simp [hcut, consPart] at h
  · cases hcut : cutAt p s with
    | none => rfl
    | some x =>
      obtain ⟨c, hc, rfl, -⟩ := exists_of_cutAt hcut
      rw [h c (by simp)] at hc
      cases hc

theorem exists_of_cutLast (h : cutLast p s = some (front, back)) :
    ∃ c, p c = true ∧ s = front ++ c :: back := by
  induction s generalizing front with
  | nil => cases h
  | cons c s ih =>
    unfold cutLast at h
    split at h
    · rename_i x hx
      cases h
      obtain ⟨c', hc, rfl⟩ := ih hx
      exact ⟨c', hc, rfl⟩
    · split at h
      · cases h
        exact ⟨c, by assumption, rfl⟩
      · cases h

/-- A character of joined parts is the separator or stands in one of the parts. -/
theorem mem_joinWith {sep c : Char} {parts : List Text} (h : c ∈ joinWith [sep] parts) :
    c = sep ∨ ∃ part ∈ parts, c ∈ part := by
  unfold joinWith at h
  induction parts with
  | nil => cases h
  | cons part parts ih =>
    cases parts with
    | nil =>
      rw [List.intercalate_singleton] at h
      exact .inr ⟨part, by simp, h⟩
    | cons part' parts =>
      rw [List.intercalate_cons_cons] at h
      rcases List.mem_append.1 h with h | h
      · rcases List.mem_append.1 h with h | h
        · exact .inr ⟨part, by simp, h⟩
        · exact .inl (List.mem_singleton.1 h)
      · rcases ih h with hsep | ⟨x, hx, hc⟩
        · exact .inl hsep
        · exact .inr ⟨x, List.mem_cons_of_mem _ hx, hc⟩

/-- Behind an empty part stands the separator. -/
theorem joinWith_nil_cons {sep : Text} {parts : List Text} (h : parts ≠ []) :
    joinWith sep ([] :: parts) = sep ++ joinWith sep parts := by
  rw [joinWith, List.intercalate_cons_of_ne_nil h, List.nil_append]
  rfl

/-- Joined parts start as the first part does, unless that is empty. -/
theorem head?_joinWith {sep part : Text} (parts : List Text) (h : part ≠ []) :
    (joinWith sep (part :: parts)).head? = part.head? := by
  obtain ⟨c, part, rfl⟩ := List.exists_cons_of_ne_nil h
  cases parts with
  | nil => rw [joinWith, List.intercalate_singleton]
  | cons part' parts =>
    rw [joinWith, List.intercalate_cons_cons, List.cons_append, List.cons_append]
    rfl

end Text

end StyleSplice
