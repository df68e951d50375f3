import StyleSplice.Proofs.Asset.Places

/-!
# Finders as scans

The finders of calls, of image sets and of strings read a text in one way: at each place that is in
nothing found before, they look for something at the front, and pass over it.
-/

namespace StyleSplice

/-- What `f` finds in a text that begins at `at₀`, from left to right, with the number of characters
that it takes. It looks for nothing in what it has found. `skip` counts the characters that are left
of that. -/
def scan {β : Type} (f : Nat → Text → Option (β × Nat)) : Nat → Nat → Text → List β
  | _, _, [] => []
  | at₀, skip + 1, _ :: r => scan f (at₀ + 1) skip r
  | at₀, 0, c :: r =>
    match f at₀ (c :: r) with
    | some (b, n) => b :: scan f (at₀ + 1) (n - 1) r
    | none => scan f (at₀ + 1) 0 r

namespace AssetRef

variable {at₀ skip : Nat} {s : Text}

/-- The call at the front of a text, with its place. -/
def callAt (at₀ : Nat) (s : Text) : Option ((AssetRef × Nat × Nat) × Nat) :=
  (urlCall? at₀ s).map fun x => ((x.1, at₀, at₀ + x.1.raw.length), x.1.raw.length)

/-- The arguments of the image set at the front of a text, with their place. -/
def setAt (at₀ : Nat) (s : Text) : Option ((Nat × Text) × Nat) :=
  (imageSet? s).map fun inner =>
    ((at₀ + (s.length - inner.length), inner.take (closedLength 0 inner)), s.length - inner.length)

/-- The string at the front of a text. -/
def stringAt (at₀ : Nat) : Text → Option (AssetRef × Nat)
  | [] => none
  | q :: r =>
    if isQuote q then
      (Text.cutAt (· == q) r).map fun x =>
        (⟨q :: x.1 ++ [q], x.1, some q, at₀ + 1, at₀ + 1 + x.1.length⟩, x.1.length + 2)
    else none

theorem urlCalls_eq_scan (at₀ skip : Nat) (s : Text) :
    urlCalls at₀ skip s = scan callAt at₀ skip s := by
  fun_induction urlCalls at₀ skip s with
  | case1 => rfl
  | case2 at₀ skip c r ih => rw [scan, ih]
  | case3 at₀ c r ref rest hcall ih =>
    rw [scan, callAt, hcall, ih]
    rfl
  | case4 at₀ c r hcall ih =>
    rw [scan, callAt, hcall, ih]
    rfl

theorem imageSets_eq_scan (at₀ skip : Nat) (s : Text) :
    imageSets at₀ skip s = scan setAt at₀ skip s := by
  fun_induction imageSets at₀ skip s with
  | case1 => rfl
  | case2 at₀ skip c r ih => rw [scan, ih]
  | case3 at₀ c r inner hset opened ih =>
    rw [scan, setAt, hset, ih]
    rfl
  | case4 at₀ c r hset ih =>
    rw [scan, setAt, hset, ih]
    rfl

theorem strings_eq_scan (at₀ skip : Nat) (s : Text) :
    strings at₀ skip s = scan stringAt at₀ skip s := by
  fun_induction strings at₀ skip s with
  | case1 => rfl
  | case2 at₀ skip c r ih => rw [scan, ih]
  | case3 at₀ c r hq url rest hcut ih =>
    rw [scan, stringAt, if_pos hq, hcut, ih]
    rfl
  | case4 at₀ c r hq hcut ih =>
    rw [scan, stringAt, if_pos hq, hcut, ih]
    rfl
  | case5 at₀ c r hq ih =>
    rw [scan, stringAt, if_neg hq, ih]

end AssetRef

section

variable {β : Type} {f : Nat → Text → Option (β × Nat)} {at₀ skip : Nat} {b : β} {s x : Text}

/-- Nothing is found at a place in `x` in front of `s`. -/
def Quiet (f : Nat → Text → Option (β × Nat)) (x s : Text) : Prop :=
  ∀ n u t, x = u ++ t → t ≠ [] → f n (t ++ s) = none

theorem Quiet.of_cons {c : Char} (h : Quiet f (c :: x) s) : Quiet f x s :=
  fun n u t hx ht => h n (c :: u) t (by rw [hx]; rfl) ht

/-- A text in which nothing is found is passed over. -/
theorem scan_quiet (h : Quiet f x s) (at₀ : Nat) :
    scan f at₀ 0 (x ++ s) = scan f (at₀ + x.length) 0 s := by
  induction x generalizing at₀ with
  | nil => rfl
  | cons c x ih =>
    have hnone : f at₀ (c :: (x ++ s)) = none := h at₀ [] (c :: x) rfl (by simp)
    rw [List.cons_append, scan, hnone]
    dsimp only
    rw [ih h.of_cons, List.length_cons, Nat.add_right_comm, Nat.add_assoc]

theorem scan_skip (at₀ k : Nat) (x s : Text) :
    scan f at₀ (x.length + k) (x ++ s) = scan f (at₀ + x.length) k s := by
  induction x generalizing at₀ with
  | nil => rw [List.length_nil, Nat.zero_add, Nat.add_zero, List.nil_append]
  | cons c x ih =>
    rw [List.length_cons, List.cons_append, Nat.add_right_comm, scan, ih, Nat.add_right_comm,
      Nat.add_assoc]

/-- What is found at the front is passed over. -/
theorem scan_found (hx : x ≠ []) (h : f at₀ (x ++ s) = some (b, x.length)) :
    scan f at₀ 0 (x ++ s) = b :: scan f (at₀ + x.length) 0 s := by
  obtain ⟨c, x, rfl⟩ := List.exists_cons_of_ne_nil hx
  have hskip := scan_skip (f := f) (at₀ + 1) 0 x s
  rw [List.cons_append] at h ⊢
  rw [scan, h]
  dsimp only
  rw [List.length_cons, Nat.add_sub_cancel, ← Nat.add_zero x.length, hskip, Nat.add_zero,
    Nat.add_right_comm, Nat.add_assoc]

/-- All that is found stands in the text. -/
theorem exists_of_mem_scan (h : b ∈ scan f at₀ skip s) :
    ∃ front t n, s = front ++ t ∧ f (at₀ + front.length) t = some (b, n) := by
  have hcons : ∀ {at₀ : Nat} {c : Char} {r : Text},
      (∃ front t n, r = front ++ t ∧ f (at₀ + 1 + front.length) t = some (b, n)) →
      ∃ front t n, c :: r = front ++ t ∧ f (at₀ + front.length) t = some (b, n) := by
    rintro at₀ c r ⟨front, t, n, rfl, hfound⟩
    refine ⟨c :: front, t, n, rfl, ?_⟩
    rwa [List.length_cons, Nat.add_comm front.length, ← Nat.add_assoc at₀]
  fun_induction scan f at₀ skip s with
  | case1 => cases h
  | case2 at₀ skip c r ih => exact hcons (ih h)
  | case3 at₀ c r b' n hfound ih =>
    rcases List.mem_cons.1 h with rfl | h
    · exact ⟨[], c :: r, n, rfl, hfound⟩
    · exact hcons (ih h)
  | case4 at₀ c r hnone ih => exact hcons (ih h)

end

end StyleSplice
