import Mathlib.Data.List.Forall2
import StyleSplice.Proofs.Asset.Scan

/-!
# Scans of a text that changes

When one part of a text is replaced by another one, and a scan finds nothing in either, it finds the
same as before, each where it gets to, provided that it does so at each place in front of the part
and behind it.
-/

namespace StyleSplice

/-- Where the place `n` gets to when `w` characters at `p` become `w'`, unless it is among them. -/
def MovesTo (p w w' n n' : Nat) : Prop := n ≤ p ∧ n' = n ∨ p + w ≤ n ∧ n' + w = n + w'

section

variable {p w w' m m' n n' : Nat}

theorem movesTo_of_le (h : n ≤ p) : MovesTo p w w' n n := .inl ⟨h, rfl⟩

theorem movesTo_behind (p w w' k : Nat) : MovesTo p w w' (p + w + k) (p + w' + k) :=
  .inr ⟨by omega, by omega⟩

theorem MovesTo.le_iff (hw : 0 < w) (hw' : 0 < w') (hm : MovesTo p w w' m m')
    (hn : MovesTo p w w' n n') : m' ≤ n' ↔ m ≤ n := by
  unfold MovesTo at hm hn
  omega

theorem MovesTo.lt_iff (hw : 0 < w) (hw' : 0 < w') (hm : MovesTo p w w' m m')
    (hn : MovesTo p w w' n n') : m' < n' ↔ m < n := by
  unfold MovesTo at hm hn
  omega

end

section

variable {β : Type} {f : Nat → Text → Option (β × Nat)} {R : β → β → Prop} {p at₀ : Nat}
  {front r s t x y : Text}

/-- Two things found at the places `n` and `n'` are related, and what they end at gets there. -/
structure StepsTo (R : β → β → Prop) (p w w' n n' : Nat) (a a' : β × Nat) : Prop where
  related : R a.1 a'.1
  ends : MovesTo p w w' (n + a.2) (n' + a'.2)
  pos : 0 < a.2
  pos' : 0 < a'.2

/-- A scan finds the same in a text that begins elsewhere. -/
theorem scan_behind {w w' : Nat} (hw : 0 < w)
    (h : ∀ k t, Option.Rel (StepsTo R p w w' (p + w + k) (p + w' + k)) (f (p + w + k) t)
      (f (p + w' + k) t)) (k skip : Nat) (t : Text) :
    List.Forall₂ R (scan f (p + w + k) skip t) (scan f (p + w' + k) skip t) := by
  induction t generalizing k skip with
  | nil =>
    rw [scan, scan]
    exact .nil
  | cons c t ih =>
    cases skip with
    | succ skip =>
      rw [scan, scan]
      exact ih (k + 1) skip
    | zero =>
      have hstep := h k (c :: t)
      rw [scan, scan]
      generalize f (p + w + k) (c :: t) = o at hstep
      generalize f (p + w' + k) (c :: t) = o' at hstep
      cases hstep with
      | none => exact ih (k + 1) 0
      | @some a a' hab =>
        obtain ⟨hrel, hends, hpos, hpos'⟩ := hab
        have hsame : a'.2 = a.2 := by
          unfold MovesTo at hends
          omega
        dsimp only
        rw [hsame]
        exact .cons hrel (ih (k + 1) (a.2 - 1))

/-- When a part of a text in which nothing is found becomes another one, a scan finds the same as
before, provided that it does so at each place in front of the part and behind it. -/
theorem scan_moved (hx : Quiet f x s) (hy : Quiet f y s) (hpos : 0 < x.length)
    (hbehind : ∀ k t, Option.Rel
      (StepsTo R p x.length y.length (p + x.length + k) (p + y.length + k)) (f (p + x.length + k) t)
      (f (p + y.length + k) t))
    (hfront : ∀ n r, r ≠ [] → r <:+ front → n + r.length = p →
      Option.Rel (StepsTo R p x.length y.length n n) (f n (r ++ (x ++ s))) (f n (r ++ (y ++ s))))
    {skip skip' : Nat} (hr : r <:+ front) (hat : at₀ + r.length = p)
    (hskip : MovesTo p x.length y.length (at₀ + skip) (at₀ + skip')) :
    List.Forall₂ R (scan f at₀ skip (r ++ (x ++ s))) (scan f at₀ skip' (r ++ (y ++ s))) := by
  induction r generalizing at₀ skip skip' with
  | nil =>
    obtain rfl : at₀ = p := hat
    rcases hskip with ⟨hle, heq⟩ | ⟨hle, heq⟩
    · obtain ⟨rfl, rfl⟩ : skip = 0 ∧ skip' = 0 := by omega
      rw [List.nil_append, List.nil_append, scan_quiet hx, scan_quiet hy]
      exact scan_behind hpos hbehind 0 0 s
    · obtain ⟨k, rfl, rfl⟩ : ∃ k, skip = x.length + k ∧ skip' = y.length + k :=
        ⟨skip - x.length, by omega, by omega⟩
      rw [List.nil_append, List.nil_append, scan_skip, scan_skip]
      exact scan_behind hpos hbehind 0 k s
  | cons c r ih =>
    have hr' : r <:+ front := (List.suffix_cons c r).trans hr
    have hat' : at₀ + 1 + r.length = p := by
      rw [List.length_cons] at hat
      omega
    have hmoves := hskip
    unfold MovesTo at hskip
    cases skip with
    | succ skip =>
      cases skip' with
      | zero => omega
      | succ skip' =>
        rw [List.cons_append, List.cons_append, scan, scan]
        refine ih hr' hat' ?_
        rwa [Nat.add_assoc, Nat.add_comm 1, Nat.add_assoc, Nat.add_comm 1]
    | zero =>
      obtain rfl : skip' = 0 := by omega
      have hstep := hfront at₀ (c :: r) (by simp) hr hat
      rw [List.cons_append, List.cons_append] at hstep ⊢
      rw [scan, scan]
      generalize f at₀ (c :: (r ++ (x ++ s))) = o at hstep
      generalize f at₀ (c :: (r ++ (y ++ s))) = o' at hstep
      cases hstep with
      | none => exact ih hr' hat' (movesTo_of_le (by omega))
      | @some a a' hab =>
        obtain ⟨hrel, hends, hpos, hpos'⟩ := hab
        refine .cons hrel (ih hr' hat' ?_)
        have hplace : at₀ + 1 + (a.2 - 1) = at₀ + a.2 := by omega
        have hplace' : at₀ + 1 + (a'.2 - 1) = at₀ + a'.2 := by omega
        rwa [hplace, hplace']

end

end StyleSplice
