import StyleSplice.Proofs.Asset.Form

/-!
# Where references stand

The references of a value are found with their places: the address of each is the text at its place. The
references in `url()` calls come one after another, and so do the strings of one `image-set()`. Two
references can only clash if one of them is a string: when the string is read in two image sets, or
when an address in a `url()` call begins inside it.
-/

namespace StyleSplice

namespace AssetRef

variable {at₀ skip : Nat} {s rest value : Text} {a b : AssetRef}

/-- The address of the reference stands at its place in a text that begins at `at₀`. -/
def InPlace (at₀ : Nat) (s : Text) (a : AssetRef) : Prop :=
  ∃ front back, s = front ++ (a.url ++ back) ∧ a.start = at₀ + front.length ∧
    a.stop = a.start + a.url.length

/-- One reference begins and ends before another one begins. -/
def Before (a b : AssetRef) : Prop := a.start < b.start ∧ a.stop ≤ b.start

theorem InPlace.prepend {w : Text} (h : InPlace (at₀ + w.length) s a) : InPlace at₀ (w ++ s) a := by
  obtain ⟨front, back, rfl, hstart, hstop⟩ := h
  refine ⟨w ++ front, back, by simp, ?_, hstop⟩
  rw [hstart, List.length_append, Nat.add_assoc]

theorem InPlace.cons {c : Char} (h : InPlace (at₀ + 1) s a) : InPlace at₀ (c :: s) a :=
  h.prepend (w := [c])

theorem InPlace.append (h : InPlace at₀ s a) (t : Text) : InPlace at₀ (s ++ t) a := by
  obtain ⟨front, back, rfl, hstart, hstop⟩ := h
  exact ⟨front, back ++ t, by simp, hstart, hstop⟩

theorem InPlace.bounds (h : InPlace at₀ s a) : a.start ≤ a.stop ∧ a.stop ≤ at₀ + s.length := by
  obtain ⟨front, back, rfl, hstart, hstop⟩ := h
  simp only [List.length_append]
  omega

/-- The address is what stands between the ends of its place. -/
theorem InPlace.slice (h : InPlace 0 s a) : (s.take a.stop).drop a.start = a.url := by
  obtain ⟨front, back, rfl, hstart, hstop⟩ := h
  rw [Nat.zero_add] at hstart
  rw [hstop, hstart, ← List.append_assoc, List.take_left' (by simp), List.drop_left]

/-- A call in front of `rest` is made of an address and what stands around it. -/
def IsCall (at₀ : Nat) (s : Text) (a : AssetRef) (rest : Text) : Prop :=
  ∃ front back, s = a.raw ++ rest ∧ a.raw = front ++ (a.url ++ back) ∧ front ≠ [] ∧ back ≠ [] ∧
    a.start = at₀ + front.length ∧ a.stop = a.start + a.url.length

theorem isCall_of_urlCall? (h : urlCall? at₀ s = some (a, rest)) : IsCall at₀ s a rest := by
  have hform := form_of_urlCall? h
  obtain ⟨front, back, hraw, hfront, hback, hstart, hstop⟩ := hform.exists_around
  exact ⟨front, back, hform.raw_append.symm, hraw, hfront, hback, hstart, hstop⟩

/-- Calls stand inside the text, around their addresses. -/
theorem mem_urlCalls {x : AssetRef × Nat × Nat} (h : x ∈ urlCalls at₀ skip s) :
    at₀ + skip ≤ x.2.1 ∧ x.2.1 < x.1.start ∧ x.1.stop < x.2.2 ∧ x.2.2 ≤ at₀ + s.length ∧
      x.1.InPlace at₀ s := by
  fun_induction urlCalls at₀ skip s with
  | case1 => cases h
  | case2 at₀ skip c r ih =>
    obtain ⟨h₁, h₂, h₃, h₄, h₅⟩ := ih h
    exact ⟨by omega, h₂, h₃, by simp only [List.length_cons]; omega, h₅.cons⟩
  | case3 at₀ c r ref rest hcall ih =>
    rcases List.mem_cons.1 h with rfl | h
    · obtain ⟨front, back, hs, hraw, hfront, hback, hstart, hstop⟩ := isCall_of_urlCall? hcall
      have hlength := congrArg List.length hs
      have hfront := List.length_pos_iff.2 hfront
      have hback := List.length_pos_iff.2 hback
      rw [hraw] at hlength ⊢
      simp only [List.length_append, List.length_cons] at hlength ⊢
      refine ⟨by omega, by omega, by omega, by omega, front, back ++ rest, ?_, hstart, hstop⟩
      rw [hs, hraw]
      simp
    · obtain ⟨h₁, h₂, h₃, h₄, h₅⟩ := ih h
      exact ⟨by omega, h₂, h₃, by simp only [List.length_cons]; omega, h₅.cons⟩
  | case4 at₀ c r hcall ih =>
    obtain ⟨h₁, h₂, h₃, h₄, h₅⟩ := ih h
    exact ⟨by omega, h₂, h₃, by simp only [List.length_cons]; omega, h₅.cons⟩

/-- A call is looked for after the end of the one before. -/
theorem pairwise_urlCalls (at₀ skip : Nat) (s : Text) :
    (urlCalls at₀ skip s).Pairwise fun x y => x.2.2 ≤ y.2.1 := by
  fun_induction urlCalls at₀ skip s with
  | case1 => exact .nil
  | case2 at₀ skip c r ih => exact ih
  | case3 at₀ c r ref rest hcall ih =>
    refine List.pairwise_cons.2 ⟨fun y hy => ?_, ih⟩
    have := (mem_urlCalls hy).1
    dsimp only
    omega
  | case4 at₀ c r hcall ih => exact ih

/-- Strings stand inside the text, each between its quotes. -/
theorem mem_strings (h : a ∈ strings at₀ skip s) :
    at₀ + skip < a.start ∧ a.stop < at₀ + s.length ∧ a.InPlace at₀ s := by
  fun_induction strings at₀ skip s with
  | case1 => cases h
  | case2 at₀ skip c r ih =>
    obtain ⟨h₁, h₂, h₃⟩ := ih h
    exact ⟨by omega, by simp only [List.length_cons]; omega, h₃.cons⟩
  | case3 at₀ c r hq url back hcut ih =>
    rcases List.mem_cons.1 h with rfl | h
    · obtain ⟨c', -, rfl, -⟩ := Text.exists_of_cutAt hcut
      refine ⟨by simp, ?_, [c], c' :: back, by simp, rfl, rfl⟩
      simp only [List.length_cons, List.length_append]
      omega
    · obtain ⟨h₁, h₂, h₃⟩ := ih h
      exact ⟨by omega, by simp only [List.length_cons]; omega, h₃.cons⟩
  | case4 at₀ c r hq hcut ih =>
    obtain ⟨h₁, h₂, h₃⟩ := ih h
    exact ⟨by omega, by simp only [List.length_cons]; omega, h₃.cons⟩
  | case5 at₀ c r hq ih =>
    obtain ⟨h₁, h₂, h₃⟩ := ih h
    exact ⟨by omega, by simp only [List.length_cons]; omega, h₃.cons⟩

/-- A string is looked for after the closing quote of the one before. -/
theorem pairwise_strings (at₀ skip : Nat) (s : Text) :
    (strings at₀ skip s).Pairwise Before := by
  fun_induction strings at₀ skip s with
  | case1 => exact .nil
  | case2 at₀ skip c r ih => exact ih
  | case3 at₀ c r hq url back hcut ih =>
    refine List.pairwise_cons.2 ⟨fun b hb => ?_, ih⟩
    have := (mem_strings hb).1
    exact ⟨by dsimp only; omega, by dsimp only; omega⟩
  | case4 at₀ c r hq hcut ih => exact ih
  | case5 at₀ c r hq ih => exact ih

/-- The arguments of every `image-set()` of a text with their places. -/
def imageSets : Nat → Nat → Text → List (Nat × Text)
  | _, _, [] => []
  | at₀, skip + 1, _ :: r => imageSets (at₀ + 1) skip r
  | at₀, 0, c :: r =>
    match imageSet? (c :: r) with
    | some inner =>
      let opened := r.length + 1 - inner.length
      (at₀ + opened, inner.take (closedLength 0 inner)) :: imageSets (at₀ + 1) (opened - 1) r
    | none => imageSets (at₀ + 1) 0 r

/-- The strings of a text are those in the arguments. -/
theorem imageSetStrings_eq (at₀ skip : Nat) (s : Text) :
    imageSetStrings at₀ skip s = (imageSets at₀ skip s).flatMap fun x => strings x.1 0 x.2 := by
  fun_induction imageSets at₀ skip s with
  | case1 => rfl
  | case2 at₀ skip c r ih => rw [imageSetStrings, ih]
  | case3 at₀ c r inner hset opened ih =>
    rw [imageSetStrings, hset]
    dsimp only
    rw [ih, List.flatMap_cons]
  | case4 at₀ c r hset ih =>
    rw [imageSetStrings, hset]
    exact ih

/-- The argument of an image set stands at its place. -/
theorem mem_imageSets {x : Nat × Text} (h : x ∈ imageSets at₀ skip s) :
    ∃ front back, s = front ++ (x.2 ++ back) ∧ x.1 = at₀ + front.length := by
  have hcons : ∀ {at₀ : Nat} {c : Char} {r : Text},
      (∃ front back, r = front ++ (x.2 ++ back) ∧ x.1 = at₀ + 1 + front.length) →
      ∃ front back, c :: r = front ++ (x.2 ++ back) ∧ x.1 = at₀ + front.length := by
    rintro at₀ c r ⟨front, back, rfl, hx⟩
    exact ⟨c :: front, back, rfl, by simp only [List.length_cons]; omega⟩
  fun_induction imageSets at₀ skip s with
  | case1 => cases h
  | case2 at₀ skip c r ih => exact hcons (ih h)
  | case3 at₀ c r inner hset opened ih =>
    rcases List.mem_cons.1 h with rfl | h
    · obtain ⟨w, hw, -⟩ := exists_isSetWord hset
      have hlength := congrArg List.length hw
      simp only [List.length_append, List.length_cons] at hlength
      refine ⟨w, inner.drop (closedLength 0 inner), by rw [List.take_append_drop, hw], ?_⟩
      dsimp only [opened]
      omega
    · exact hcons (ih h)
  | case4 at₀ c r hset ih => exact hcons (ih h)

theorem perm_insert (a : AssetRef) (refs : List AssetRef) : (insert a refs).Perm (a :: refs) := by
  fun_induction insert a refs with
  | case1 => rfl
  | case2 b rest hle ih => exact (ih.cons b).trans (List.Perm.swap a b rest)
  | case3 => rfl

theorem pairwise_insert (a : AssetRef) {refs : List AssetRef}
    (h : refs.Pairwise fun x y => x.start ≤ y.start) :
    (insert a refs).Pairwise fun x y => x.start ≤ y.start := by
  fun_induction insert a refs with
  | case1 => simp
  | case2 b rest hle ih =>
    obtain ⟨hb, hrest⟩ := List.pairwise_cons.1 h
    refine List.pairwise_cons.2 ⟨fun y hy => ?_, ih hrest⟩
    rcases List.mem_cons.1 ((perm_insert a rest).mem_iff.1 hy) with rfl | hy
    · exact hle
    · exact hb y hy
  | case3 b rest hlt =>
    refine List.pairwise_cons.2 ⟨fun y hy => ?_, h⟩
    rcases List.mem_cons.1 hy with rfl | hy
    · omega
    · have := (List.pairwise_cons.1 h).1 y hy
      omega

/-- Ordering references loses none, and leaves them in the order of their places. -/
theorem sortByStart_spec (refs : List AssetRef) :
    (sortByStart refs).Perm refs ∧ (sortByStart refs).Pairwise fun x y => x.start ≤ y.start := by
  have hfold : ∀ sorted : List AssetRef, sorted.Pairwise (fun x y => x.start ≤ y.start) →
      (refs.foldl (fun sorted a => insert a sorted) sorted).Perm (sorted ++ refs) ∧
      (refs.foldl (fun sorted a => insert a sorted) sorted).Pairwise
        fun x y => x.start ≤ y.start := by
    induction refs with
    | nil => exact fun sorted h => ⟨by simp, h⟩
    | cons a refs ih =>
      intro sorted h
      obtain ⟨hperm, hsorted⟩ := ih _ (pairwise_insert a h)
      refine ⟨hperm.trans ?_, hsorted⟩
      exact ((perm_insert a sorted).append_right refs).trans List.perm_middle.symm
  exact hfold [] .nil

/-- A string that begins in a `url()` call is a part of the call. -/
def Covered (value : Text) (a : AssetRef) : Prop :=
  ∃ x ∈ urlCalls 0 0 value, x.2.1 < a.start ∧ a.start ≤ x.2.2

/-- The strings that count as references. -/
def counted (value : Text) (strings : List AssetRef) : List AssetRef :=
  strings.filter fun a => !(urlCalls 0 0 value).any fun x => x.2.1 < a.start && a.start ≤ x.2.2

theorem mem_counted {refs : List AssetRef} :
    a ∈ counted value refs ↔ a ∈ refs ∧ ¬ Covered value a := by
  simp [counted, Covered]

/-- The references of a value are those in its calls and the strings that count. -/
theorem findAll_perm (value : Text) :
    (findAll value).Perm
      ((urlCalls 0 0 value).map Prod.fst ++ counted value (imageSetStrings 0 0 value)) :=
  (sortByStart_spec _).1

theorem pairwise_findAll (value : Text) : (findAll value).Pairwise fun a b => a.start ≤ b.start :=
  (sortByStart_spec _).2

/-- Every reference stands at its place. -/
theorem inPlace_of_mem_findAll (h : a ∈ findAll value) : a.InPlace 0 value := by
  rcases List.mem_append.1 ((findAll_perm value).mem_iff.1 h) with h | h
  · obtain ⟨x, hx, rfl⟩ := List.mem_map.1 h
    exact (mem_urlCalls hx).2.2.2.2
  · have hmem := (mem_counted.1 h).1
    rw [imageSetStrings_eq] at hmem
    obtain ⟨x, hx, hax⟩ := List.mem_flatMap.1 hmem
    obtain ⟨front, back, rfl, hplace⟩ := mem_imageSets hx
    have hin := (mem_strings hax).2.2
    rw [hplace] at hin
    exact (hin.append back).prepend

/-- No reference begins inside a string that counts: no address of a call does, and no string that
counts in one image set stands in the argument of another in front of it. -/
structure Separate (value : Text) : Prop where
  calls : ∀ x ∈ urlCalls 0 0 value, ∀ a ∈ counted value (imageSetStrings 0 0 value),
    ¬ (a.start ≤ x.1.start ∧ x.1.start ≤ a.stop)
  sets : (imageSets 0 0 value).Pairwise fun x y =>
    ∀ a ∈ counted value (strings y.1 0 y.2), x.1 + x.2.length ≤ a.start

instance (value : Text) : Decidable (Separate value) :=
  decidable_of_iff (_ ∧ _) ⟨fun h => ⟨h.1, h.2⟩, fun h => ⟨h.calls, h.sets⟩⟩

/-- Of two references one is before the other. -/
def Apart (a b : AssetRef) : Prop := a.Before b ∨ b.Before a

theorem Apart.symm (h : a.Apart b) : b.Apart a := Or.symm h

/-- The address of a call and a string that counts are apart unless the address begins in the
string. -/
theorem apart_of_call {x : AssetRef × Nat × Nat} (hx : x ∈ urlCalls 0 0 value)
    (ha : a.InPlace 0 value) (hfree : ¬ Covered value a)
    (hin : ¬ (a.start ≤ x.1.start ∧ x.1.start ≤ a.stop)) : x.1.Apart a := by
  obtain ⟨-, hstart, hstop, -, hplace⟩ := mem_urlCalls hx
  have hcall := hplace.bounds.1
  have hstring := ha.bounds.1
  have hcover : ¬ (x.2.1 < a.start ∧ a.start ≤ x.2.2) := fun h => hfree ⟨x, hx, h⟩
  unfold Apart Before
  omega

/-- The strings that count are apart if none of them is read in two image sets. -/
theorem pairwise_counted {sets : List (Nat × Text)}
    (h : sets.Pairwise fun x y =>
      ∀ a ∈ counted value (strings y.1 0 y.2), x.1 + x.2.length ≤ a.start) :
    (counted value (sets.flatMap fun x => strings x.1 0 x.2)).Pairwise Apart := by
  induction sets with
  | nil => exact .nil
  | cons x sets ih =>
    obtain ⟨hx, hsets⟩ := List.pairwise_cons.1 h
    rw [List.flatMap_cons, counted, List.filter_append]
    refine List.pairwise_append.2 ⟨?_, ih hsets, fun a ha b hb => ?_⟩
    · exact ((pairwise_strings x.1 0 x.2).filter _).imp Or.inl
    · obtain ⟨ha, -⟩ := mem_counted.1 ha
      obtain ⟨hb, hfree⟩ := mem_counted.1 hb
      obtain ⟨y, hy, hby⟩ := List.mem_flatMap.1 hb
      have hle := hx y hy b (mem_counted.2 ⟨hby, hfree⟩)
      obtain ⟨-, hstop, hplace⟩ := mem_strings ha
      have hbounds := hplace.bounds.1
      exact .inl ⟨by omega, by omega⟩

/-- If no reference begins inside another one, each ends before the next one begins. -/
theorem pairwise_before_of_separate (h : Separate value) : (findAll value).Pairwise Before := by
  have hcalls : ((urlCalls 0 0 value).map Prod.fst).Pairwise Apart := by
    refine List.pairwise_map.2 ((pairwise_urlCalls 0 0 value).imp_of_mem fun {x y} hx hy hxy => ?_)
    obtain ⟨-, -, hstop, -, hplace⟩ := mem_urlCalls hx
    obtain ⟨-, hstart, -⟩ := mem_urlCalls hy
    have hle := hplace.bounds.1
    exact .inl ⟨by omega, by omega⟩
  have hstrings : (counted value (imageSetStrings 0 0 value)).Pairwise Apart := by
    rw [imageSetStrings_eq]
    exact pairwise_counted h.sets
  have hall : (findAll value).Pairwise Apart := by
    refine ((findAll_perm value).pairwise_iff fun hab => hab.symm).2
      (List.pairwise_append.2 ⟨hcalls, hstrings, fun a ha b hb => ?_⟩)
    obtain ⟨x, hx, rfl⟩ := List.mem_map.1 ha
    have hmem : b ∈ findAll value :=
      (findAll_perm value).mem_iff.2 (List.mem_append_right _ hb)
    exact apart_of_call hx (inPlace_of_mem_findAll hmem) (mem_counted.1 hb).2 (h.calls x hx b hb)
  refine (hall.and (pairwise_findAll value)).imp ?_
  rintro a b ⟨hab | hba, hle⟩
  · exact hab
  · have := hba.1
    omega

end AssetRef

end StyleSplice
