import StyleSplice.Proofs.Asset.Slot

/-!
# One address in the place of another one

When an address takes the place of another one in its slot, the same references are found as before,
with the same quotes, each where its place gets to.
-/

namespace StyleSplice

namespace AssetRef

variable {n p w w' : Nat} {front r s x y : Text} {quote : Option Char} {q : Char} {a a' : AssetRef}

/-- A call is found wherever the text begins. -/
theorem callAt_behind (p w w' k : Nat) (t : Text) :
    Option.Rel (StepsTo (CallMoved p w w') p w w' (p + w + k) (p + w' + k)) (callAt (p + w + k) t)
      (callAt (p + w' + k) t) := by
  rw [callAt, callAt, urlCall?_eq, urlCall?_eq]
  cases hword : afterWord? "url(".toList t with
  | none => exact .none
  | some inner =>
    rw [Option.bind_some, Option.bind_some]
    cases hfound : (quotedAddress? (Text.trimStart isBlank inner)).or
        (bareAddress? (Text.trimStart isBlank inner)) with
    | none => exact .none
    | some u =>
      have hpos : 0 < (t.take (t.length - u.2.2.length)).length := by
        have hcall : urlCall? 0 t =
            some (ofAddress (0 + 4 + (Text.leading isBlank inner).length) t u, u.2.2) := by
          rw [urlCall?_eq, hword, Option.bind_some, hfound]
          rfl
        exact List.length_pos_iff.2 (form_of_urlCall? hcall).raw_ne_nil
      refine .some ⟨⟨⟨rfl, ?_, ?_⟩, ?_, ?_⟩, ?_, hpos, hpos⟩ <;> simp only [ofAddress, MovesTo] <;>
        omega

theorem cutAt_unquoted (hq : isQuote q = true) (hx : ∀ c ∈ x, isQuote c = false) (s : Text) :
    Text.cutAt (· == q) (x ++ s) = (Text.cutAt (· == q) s).map fun u => (x ++ u.1, u.2) := by
  rw [Text.cutAt_parts]
  cases hcut : Text.cutAt (· == q) x with
  | none => rfl
  | some u =>
    obtain ⟨c, hc, rfl, -⟩ := Text.exists_of_cutAt hcut
    obtain rfl : c = q := by simpa using hc
    rw [hx c (by simp)] at hq
    cases hq

/-- A string that begins in front of a text without quotes ends there or behind it. -/
theorem stringAt_front (hx : ∀ c ∈ x, isQuote c = false) (hy : ∀ c ∈ y, isQuote c = false)
    (hne : r ≠ []) (hn : n + r.length = p) :
    Option.Rel (StepsTo (Moved p x.length y.length) p x.length y.length n n)
      (stringAt n (r ++ (x ++ s))) (stringAt n (r ++ (y ++ s))) := by
  obtain ⟨q, r, rfl⟩ := List.exists_cons_of_ne_nil hne
  rw [List.length_cons] at hn
  rw [List.cons_append, List.cons_append, stringAt, stringAt]
  by_cases hq : isQuote q = true
  · rw [if_pos hq, if_pos hq, Text.cutAt_parts, Text.cutAt_parts _ r, cutAt_unquoted hq hx,
      cutAt_unquoted hq hy]
    cases hr : Text.cutAt (· == q) r with
    | some u =>
      obtain ⟨c, -, rfl, -⟩ := Text.exists_of_cutAt hr
      simp only [List.length_append, List.length_cons] at hn
      refine .some ⟨⟨rfl, movesTo_of_le ?_, movesTo_of_le ?_⟩, movesTo_of_le ?_, ?_, ?_⟩ <;>
        dsimp only <;> omega
    | none =>
      cases hs : Text.cutAt (· == q) s with
      | none => exact .none
      | some u =>
        refine .some ⟨⟨rfl, movesTo_of_le ?_, ?_⟩, ?_, ?_, ?_⟩ <;>
          simp only [List.length_append, MovesTo] <;> omega
  · rw [if_neg hq, if_neg hq]
    exact .none

theorem stringAt_behind (p w w' k : Nat) (t : Text) :
    Option.Rel (StepsTo (Moved p w w') p w w' (p + w + k) (p + w' + k)) (stringAt (p + w + k) t)
      (stringAt (p + w' + k) t) := by
  cases t with
  | nil => exact .none
  | cons q r =>
    rw [stringAt, stringAt]
    split_ifs
    · cases Text.cutAt (· == q) r with
      | none => exact .none
      | some u =>
        refine .some ⟨⟨rfl, ?_, ?_⟩, ?_, ?_, ?_⟩ <;> simp only [MovesTo] <;> omega
    · exact .none

/-- The same strings are found around an address without quotes. -/
theorem strings_moved (hx : ∀ c ∈ x, isQuote c = false) (hy : ∀ c ∈ y, isQuote c = false)
    (hpos : x ≠ []) (hn : n + r.length = p) :
    List.Forall₂ (Moved p x.length y.length) (strings n 0 (r ++ (x ++ s)))
      (strings n 0 (r ++ (y ++ s))) := by
  rw [strings_eq_scan, strings_eq_scan]
  exact scan_moved (quiet_stringAt hx) (quiet_stringAt hy) (List.length_pos_iff.2 hpos)
    (stringAt_behind p _ _) (fun n r hne _ hn => stringAt_front hx hy hne hn) (List.suffix_refl r)
    hn (movesTo_of_le (by omega))

/-- The same strings are found in the arguments of two image sets. -/
def SetMoved (p w w' : Nat) (a a' : Nat × Text) : Prop :=
  List.Forall₂ (Moved p w w') (strings a.1 0 a.2) (strings a'.1 0 a'.2)

theorem setAt_behind (hw : 0 < w) (k : Nat) (t : Text) :
    Option.Rel (StepsTo (SetMoved p w w') p w w' (p + w + k) (p + w' + k)) (setAt (p + w + k) t)
      (setAt (p + w' + k) t) := by
  rw [setAt, setAt]
  cases hset : imageSet? t with
  | none => exact .none
  | some inner =>
    obtain ⟨word, rfl, hword⟩ := exists_isSetWord hset
    have hpos := List.length_pos_iff.2 hword.ne_nil
    have hlength : (word ++ inner).length - inner.length = word.length := by
      rw [List.length_append, Nat.add_sub_cancel]
    rw [Option.map_some, Option.map_some, hlength]
    refine .some ⟨?_, ?_, hpos, hpos⟩
    · rw [SetMoved, Nat.add_assoc (p + w), Nat.add_assoc (p + w'), strings_eq_scan, strings_eq_scan]
      exact scan_behind hw (stringAt_behind p w w') _ 0 _
    · rw [Nat.add_assoc (p + w), Nat.add_assoc (p + w')]
      exact movesTo_behind p w w' _

theorem closedLength_le (depth : Nat) (s : Text) : closedLength depth s ≤ s.length := by
  fun_induction closedLength depth s with
  | case1 => exact Nat.le_refl 0
  | case2 depth r ih => exact Nat.succ_le_succ ih
  | case3 r hc => exact Nat.zero_le _
  | case4 depth r hc ih => exact Nat.succ_le_succ ih
  | case5 depth c r ho hc ih => exact Nat.succ_le_succ ih

/-- An image set that begins in front of a slot is found there, with the same strings. -/
theorem Slot.setAt (h : Slot quote front s) (hx : Fits quote x) (hy : Fits quote y)
    (hr : r <:+ front) (hne : r ≠ []) (hn : n + r.length = p) :
    Option.Rel (StepsTo (SetMoved p x.length y.length) p x.length y.length n n)
      (setAt n (r ++ (x ++ s))) (setAt n (r ++ (y ++ s))) := by
  rw [AssetRef.setAt, AssetRef.setAt, h.imageSet? hr hne, h.imageSet? hr hne]
  cases hset : AssetRef.imageSet? r with
  | none => exact .none
  | some inner =>
    obtain ⟨word, rfl, hword⟩ := exists_isSetWord hset
    have hpos := List.length_pos_iff.2 hword.ne_nil
    rw [List.length_append] at hn
    have hplace : n + word.length + inner.length = p := by omega
    have hlength : ∀ z : Text, (word ++ inner ++ z).length - (inner ++ z).length = word.length := by
      intro z
      simp only [List.length_append]
      omega
    rw [Option.map_some, Option.map_some, Option.map_some, Option.map_some, hlength, hlength]
    refine .some ⟨?_, movesTo_of_le (by dsimp only; omega), hpos, hpos⟩
    dsimp only [SetMoved]
    cases hcount : bracketsAfter? 0 inner with
    | none =>
      -- the count ends in front of the slot
      have htake : ∀ z : Text, (inner ++ z).take (closedLength 0 (inner ++ z)) =
          inner.take (closedLength 0 inner) := by
        intro z
        rw [closedLength_append, hcount]
        exact List.take_append_of_le_length (closedLength_le 0 inner)
      rw [htake, htake]
      refine List.forall₂_same.2 fun b hb => ?_
      obtain ⟨-, hstop, hin⟩ := mem_strings hb
      have hbounds := hin.bounds
      have hle := List.length_take_le' (closedLength 0 inner) inner
      exact ⟨rfl, movesTo_of_le (by omega), movesTo_of_le (by omega)⟩
    | some d =>
      have htake : ∀ {z : Text}, Fits quote z → (inner ++ (z ++ s)).take
          (closedLength 0 (inner ++ (z ++ s))) = inner ++ (z ++ s.take (closedLength d s)) := by
        intro z hz
        rw [closedLength_append, hcount, List.take_length_add_append, hz.level.closedLength_eq,
          List.take_length_add_append]
      rw [htake hx, htake hy]
      exact strings_moved hx.unquoted hy.unquoted hx.ne_nil hplace

theorem rel_any {α β : Type} {R : α → β → Prop} {f : α → Bool} {g : β → Bool} {l : List α}
    {l' : List β} (h : List.Forall₂ R l l') (hfg : ∀ a b, R a b → f a = g b) :
    l.any f = l'.any g := by
  induction h with
  | nil => rfl
  | cons hab _ ih => rw [List.any_cons, List.any_cons, hfg _ _ hab, ih]

theorem insert_moved (hw : 0 < w) (hw' : 0 < w') (ha : Moved p w w' a a')
    {refs refs' : List AssetRef} (h : List.Forall₂ (Moved p w w') refs refs') :
    List.Forall₂ (Moved p w w') (insert a refs) (insert a' refs') := by
  induction h with
  | nil => exact .cons ha .nil
  | @cons b b' _ _ hb hrest ih =>
    rw [insert, insert]
    by_cases hle : b.start ≤ a.start
    · rw [if_pos hle, if_pos ((hb.start.le_iff hw hw' ha.start).2 hle)]
      exact .cons hb ih
    · rw [if_neg hle, if_neg (mt (hb.start.le_iff hw hw' ha.start).1 hle)]
      exact .cons ha (.cons hb hrest)

theorem sortByStart_moved (hw : 0 < w) (hw' : 0 < w') {refs refs' : List AssetRef}
    (h : List.Forall₂ (Moved p w w') refs refs') :
    List.Forall₂ (Moved p w w') (sortByStart refs) (sortByStart refs') :=
  List.rel_foldl (P := List.Forall₂ (Moved p w w')) (R := Moved p w w')
    (fun _ _ hsorted _ _ ha => insert_moved hw hw' ha hsorted) .nil h

/-- When another address takes the place of the one in a slot, the same references are found. -/
theorem Slot.findAll (h : Slot quote front s) (hx : Fits quote x) (hy : Fits quote y) :
    List.Forall₂ (Moved front.length x.length y.length) (AssetRef.findAll (front ++ (x ++ s)))
      (AssetRef.findAll (front ++ (y ++ s))) := by
  have hposx := List.length_pos_iff.2 hx.ne_nil
  have hposy := List.length_pos_iff.2 hy.ne_nil
  obtain ⟨c, t, hs, hc⟩ := h.exists_head
  have hsilent : ∀ {z : Text}, Fits quote z → Silent z s := fun hz => by
    rw [hs]
    exact hz.silent.barrier (isBarrier_of_mark hc) t
  have hcalls : List.Forall₂ (CallMoved front.length x.length y.length)
      (urlCalls 0 0 (front ++ (x ++ s))) (urlCalls 0 0 (front ++ (y ++ s))) := by
    rw [urlCalls_eq_scan, urlCalls_eq_scan]
    exact scan_moved (quiet_callAt (hsilent hx).1) (quiet_callAt (hsilent hy).1) hposx
      (callAt_behind _ _ _) (fun n r hne hr hn => h.callAt hx hy hr hne hn) (List.suffix_refl front)
      (Nat.zero_add _) (movesTo_of_le (Nat.zero_le _))
  have hsets : List.Forall₂ (SetMoved front.length x.length y.length)
      (imageSets 0 0 (front ++ (x ++ s))) (imageSets 0 0 (front ++ (y ++ s))) := by
    rw [imageSets_eq_scan, imageSets_eq_scan]
    exact scan_moved (quiet_setAt (hsilent hx).2) (quiet_setAt (hsilent hy).2) hposx
      (setAt_behind hposx) (fun n r hne hr hn => h.setAt hx hy hr hne hn) (List.suffix_refl front)
      (Nat.zero_add _) (movesTo_of_le (Nat.zero_le _))
  have hstrings : List.Forall₂ (Moved front.length x.length y.length)
      (imageSetStrings 0 0 (front ++ (x ++ s))) (imageSetStrings 0 0 (front ++ (y ++ s))) := by
    rw [imageSetStrings_eq, imageSetStrings_eq]
    exact List.rel_flatMap hsets fun _ _ hset => hset
  have hrefs : List.Forall₂ (Moved front.length x.length y.length)
      ((urlCalls 0 0 (front ++ (x ++ s))).map Prod.fst)
      ((urlCalls 0 0 (front ++ (y ++ s))).map Prod.fst) :=
    List.rel_map (fun _ _ hcall => hcall.ref) hcalls
  refine sortByStart_moved hposx hposy
    (List.rel_append hrefs (List.rel_filter (fun a b hab => ?_) hstrings))
  have hcovered := rel_any hcalls (f := fun u => u.2.1 < a.start && a.start ≤ u.2.2)
    (g := fun u => u.2.1 < b.start && b.start ≤ u.2.2) fun u v huv => by
      simp only [huv.start.lt_iff hposx hposy hab.start, hab.start.le_iff hposx hposy huv.stop]
  dsimp only
  rw [hcovered]

end AssetRef

end StyleSplice
