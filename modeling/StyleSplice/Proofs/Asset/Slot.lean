import StyleSplice.Proofs.Asset.Moved
import StyleSplice.Proofs.Asset.Seen

/-!
# Addresses in their slots

An address stands between its quotes, or between the word and the bracket of a call. Another one may
take its place as long as the finders pass over both: then they find in front of it, around it and
behind it what they have found before.
-/

namespace StyleSplice

theorem Text.consPart_eq_map (c : Char) (o : Option (Text × Text)) :
    Text.consPart c o = o.map fun u => (c :: u.1, u.2) := by
  cases o <;> rfl

/-- A cut in a text of two parts is a cut in the first one, or in the second if there is none. -/
theorem Text.cutAt_parts (p : Char → Bool) (s t : Text) :
    Text.cutAt p (s ++ t) = match Text.cutAt p s with
      | some (u, v) => some (u, v ++ t)
      | none => (Text.cutAt p t).map fun u => (s ++ u.1, u.2) := by
  induction s with
  | nil =>
    rw [List.nil_append, cutAt]
    cases cutAt p t <;> rfl
  | cons c s ih =>
    rw [List.cons_append, cutAt, cutAt]
    split_ifs
    · rfl
    · rw [ih, consPart_eq_map, consPart_eq_map]
      cases cutAt p s with
      | some u => rfl
      | none => cases cutAt p t <;> rfl

/-- A text that holds something else than `p` is trimmed alike, whatever stands behind it. -/
theorem Text.trim_parts {p : Char → Bool} {s : Text} (h : ¬ Text.All p s) (t : Text) :
    Text.leading p (s ++ t) = Text.leading p s ∧
      Text.trimStart p (s ++ t) = Text.trimStart p s ++ t ∧ Text.trimStart p s ≠ [] := by
  have hparts := Text.leading_append_trimStart p s
  have hall := Text.all_leading p s
  have hne : Text.trimStart p s ≠ [] := by
    intro hnil
    rw [hnil, List.append_nil] at hparts
    rw [hparts] at hall
    exact h hall
  have hclear : Text.Clear p (Text.trimStart p s ++ t) :=
    (Text.clear_trimStart p s).append hne t
  have htext : s ++ t = Text.leading p s ++ (Text.trimStart p s ++ t) := by
    rw [← List.append_assoc, hparts]
  refine ⟨?_, ?_, hne⟩
  · rw [htext, Text.leading_of_all hall, Text.leading_of_clear hclear, List.append_nil]
  · rw [htext, Text.trimStart_of_all hall, Text.trimStart_of_clear hclear]

namespace Import

variable {q : Char} {s t x : Text}

/-- A closing bracket is not behind a text unless it is in it, or in front of what follows. -/
theorem afterClosing?_parts (h : afterClosing? t = none) (z : Text) :
    afterClosing? (z ++ t) = (afterClosing? z).map (· ++ t) := by
  by_cases hz : Text.All isBlank z
  · have htrim := Text.trimStart_of_all hz []
    rw [List.append_nil] at htrim
    have hnone : afterClosing? z = none := by
      rw [afterClosing?, htrim]
      rfl
    rw [hnone, afterClosing?, Text.trimStart_of_all hz, ← afterClosing?, h]
    rfl
  · obtain ⟨-, htrim, hne⟩ := Text.trim_parts hz t
    obtain ⟨d, r, hd⟩ := List.exists_cons_of_ne_nil hne
    rw [afterClosing?, afterClosing?, htrim, hd]
    by_cases hclosing : d = ')'
    · subst hclosing
      rfl
    · rw [List.cons_append]
      split
      · rename_i hcons
        exact absurd (List.cons_eq_cons.1 hcons).1 hclosing
      · split
        · rename_i hcons
          exact absurd (List.cons_eq_cons.1 hcons).1 hclosing
        · rfl

/-- An argument that begins in front of a text without its quote ends there, or behind that text. -/
theorem quotedArgument?_parts (hx : q ∉ x) (h : afterClosing? (x ++ s) = none) (z : Text) :
    quotedArgument? q (z ++ (x ++ s)) = match quotedArgument? q z with
      | some (url, rest) => some (url, rest ++ (x ++ s))
      | none => (quotedArgument? q s).map fun u => (z ++ (x ++ u.1), u.2) := by
  induction z with
  | nil =>
    rw [List.nil_append, quotedArgument?]
    clear h
    induction x with
    | nil =>
      rw [List.nil_append]
      cases quotedArgument? q s <;> rfl
    | cons c x ih =>
      obtain ⟨hc, hx⟩ : q ≠ c ∧ q ∉ x := by simpa [not_or] using hx
      rw [List.cons_append, quotedArgument?, if_neg (Ne.symm hc), ih hx, Text.consPart_eq_map]
      cases quotedArgument? q s <;> rfl
  | cons c z ih =>
    have hlater : Text.consPart c (quotedArgument? q (z ++ (x ++ s))) =
        match Text.consPart c (quotedArgument? q z) with
        | some (url, rest) => some (url, rest ++ (x ++ s))
        | none => (quotedArgument? q s).map fun u => (c :: z ++ (x ++ u.1), u.2) := by
      rw [ih, Text.consPart_eq_map, Text.consPart_eq_map]
      cases quotedArgument? q z with
      | some u => rfl
      | none => cases quotedArgument? q s <;> rfl
    rw [List.cons_append, quotedArgument?, quotedArgument?, afterClosing?_parts h]
    split_ifs
    · cases afterClosing? z with
      | some r => rfl
      | none => exact hlater
    · exact hlater

end Import

namespace AssetRef

variable {n : Nat} {arg front inner r s w word x y : Text} {quote : Option Char} {c q : Char}

/-- What stands around an address. -/
inductive Slot : Option Char → Text → Text → Prop
  | quoted {front rest : Text} {q : Char} (quote : isQuote q = true) :
    Slot (some q) (front ++ [q]) (q :: rest)
  | bare {front word gap gap' rest : Text} (named : IsWord "url(".toList word)
    (gaps : Text.All isBlank gap) (gaps' : Text.All isBlank gap') :
    Slot none (front ++ (word ++ gap)) (gap' ++ ')' :: rest)

/-- A text that the finders pass over: it has no quotes, its round brackets close one another, and
no word of a reference stands in it. -/
structure Inert (x : Text) : Prop where
  unquoted : ∀ c ∈ x, isQuote c = false
  level : Level x
  silent : Silent x []

instance (x : Text) : Decidable (Inert x) :=
  decidable_of_iff (_ ∧ _ ∧ _) ⟨fun h => ⟨h.1, h.2.1, h.2.2⟩, fun h => ⟨h.1, h.2, h.3⟩⟩

/-- An address that the finders pass over, and that can be written without quotes where it has none.
-/
structure Fits (quote : Option Char) (x : Text) : Prop extends Inert x where
  ne_nil : x ≠ []
  plain : quote = none → Text.All isBareChar x

theorem exists_of_suffix (h : r <:+ front ++ [c]) (hr : r ≠ []) : ∃ g, r = g ++ [c] := by
  rcases List.suffix_concat_iff.1 h with rfl | ⟨g, rfl, -⟩
  · exact absurd rfl hr
  · exact ⟨g, rfl⟩

/-- What is in front of a slot ends in a mark that is in no word, unless it is the bracket of one.
-/
theorem Slot.exists_last (h : Slot quote front s) : ∃ f c, front = f ++ [c] ∧
    (isQuote c = true ∨ c = '(' ∨ isBlank c = true) ∧ (quote ≠ none → isQuote c = true) := by
  cases h with
  | @quoted front rest q hq => exact ⟨front, q, rfl, .inl hq, fun _ => hq⟩
  | @bare front word gap gap' rest named gaps gaps' =>
    obtain ⟨u, rfl, -⟩ := exists_bracket_of_call named
    rcases List.eq_nil_or_concat gap with rfl | ⟨g, c, rfl⟩
    · exact ⟨front ++ u, '(', by simp, .inr (.inl rfl), fun h => absurd rfl h⟩
    · exact ⟨front ++ (u ++ '(' :: g), c, by simp, .inr (.inr (gaps c (by simp))),
        fun h => absurd rfl h⟩

/-- What is behind a slot begins with a mark that is in no word. -/
theorem Slot.exists_head (h : Slot quote front s) :
    ∃ c k, s = c :: k ∧ (isQuote c = true ∨ c = ')' ∨ isBlank c = true) := by
  cases h with
  | quoted hq => exact ⟨_, _, rfl, .inl hq⟩
  | @bare _ _ _ gap' _ _ _ gaps' =>
    cases gap' with
    | nil => exact ⟨_, _, rfl, .inr (.inl rfl)⟩
    | cons c g => exact ⟨c, _, rfl, .inr (.inr (gaps' c (by simp)))⟩

theorem isLetter_of_isBlank {k : Char} (hk : isBlank k = false) (hc : isBlank c = true) :
    isLetter k c = false := by
  refine Bool.eq_false_iff.2 fun h => ?_
  have hlower : c.toLower = c := by
    refine dif_neg ?_
    rintro ⟨hfirst, hlast⟩
    have hfirst : 65 ≤ c.toNat := UInt32.le_iff_toNat_le.1 hfirst
    have hlast : c.toNat ≤ 90 := UInt32.le_iff_toNat_le.1 hlast
    simp only [isBlank, Bool.or_eq_true, Bool.and_eq_true, decide_eq_true_eq, beq_iff_eq] at hc
    omega
  rcases toLower_or_of_isLetter h with hck | ⟨-, rfl | rfl⟩ | ⟨-, rfl⟩ | ⟨-, rfl⟩
  · rw [← hck, hlower, hc] at hk
    cases hk
  all_goals
    revert hc
    decide

/-- A mark at the end of a slot is none of the letters of a word. -/
theorem isLetter_mark {k : Char} (hk : isMild k = true ∧ isBlank k = false)
    (hc : isQuote c = true ∨ (c = '(' ∨ c = ')') ∨ isBlank c = true) : isLetter k c = false := by
  have hmild : isMild c = false → isLetter k c = false := fun hno =>
    Bool.eq_false_iff.2 fun h => by
      rw [isMild_of_isLetter hk.1 h] at hno
      cases hno
  rcases hc with hc | (rfl | rfl) | hc
  · exact hmild (by simp [isMild, isSingle, hc])
  · exact hmild rfl
  · exact hmild rfl
  · exact isLetter_of_isBlank hk.2 hc

theorem isBarrier_of_mark (hc : isQuote c = true ∨ c = ')' ∨ isBlank c = true) : IsBarrier c := by
  have hletters : ∀ k ∈ "url(".toList ++ "-webkit-image-set(".toList,
      k = '(' ∨ isMild k = true ∧ isBlank k = false := by decide
  intro k hk
  rcases hletters k hk with rfl | hk
  · refine Bool.eq_false_iff.2 fun h => ?_
    obtain rfl := isLetter_bracket h
    revert hc
    decide
  · exact isLetter_mark hk (hc.imp_right (Or.imp_left .inr))

/-- A word that begins in front of a mark ends there, at the latest at the mark. -/
theorem afterWord?_parts (hc : ∀ k ∈ w.dropLast, isLetter k c = false) (r t : Text) :
    afterWord? w (r ++ c :: t) = (afterWord? w (r ++ [c])).map (· ++ t) := by
  induction w generalizing r with
  | nil => simp [afterWord?]
  | cons k w ih =>
    cases r with
    | nil =>
      rw [List.nil_append, List.nil_append, afterWord?, afterWord?]
      split_ifs with hk
      · cases w with
        | nil => rfl
        | cons k' w =>
          rw [hc k (by simp)] at hk
          cases hk
      · rfl
    | cons d r =>
      have hlater := ih (fun k' hk' => hc k' ?_) r
      · rw [List.cons_append, List.cons_append, afterWord?, afterWord?, hlater]
        split_ifs <;> rfl
      · cases w with
        | nil => cases hk'
        | cons k'' w => exact List.mem_cons_of_mem _ hk'

/-- No bracket is closed in front of a level text. -/
theorem afterClosing?_of_level (h : Level x) : Import.afterClosing? x = none := by
  cases hclosing : Import.afterClosing? x with
  | none => rfl
  | some rest =>
    obtain ⟨gap, hgap, rfl⟩ := Import.exists_of_afterClosing? hclosing
    have hfree : bracketsAfter? 0 (gap ++ ')' :: rest) = none := by
      clear h hclosing
      induction gap with
      | nil => rfl
      | cons c gap ih =>
        obtain ⟨hc, hgap⟩ := Text.all_cons.1 hgap
        have hmark : c ≠ '(' ∧ c ≠ ')' := by
          constructor <;> rintro rfl <;> cases hc
        rw [List.cons_append, bracketsAfter?_cons hmark.1 hmark.2, ih hgap]
    rw [Level, hfree] at h
    cases h

/-- No bracket is closed in front of an address in its slot. -/
theorem Slot.afterClosing?_eq_none (h : Slot quote front s) (hx : Fits quote x) :
    Import.afterClosing? (x ++ s) = none := by
  cases h with
  | @quoted front rest q hq =>
    have hclosing : Import.afterClosing? (q :: rest) = none := by
      rw [Import.afterClosing?, Text.trimStart_of_clear (Text.clear_cons.2 (isBlank_of_isQuote hq))]
      split
      · rename_i hcons
        obtain rfl := (List.cons_eq_cons.1 hcons).1
        cases hq
      · rfl
    rw [Import.afterClosing?_parts hclosing, afterClosing?_of_level hx.level]
    rfl
  | bare =>
    obtain ⟨c, x, rfl⟩ := List.exists_cons_of_ne_nil hx.ne_nil
    obtain ⟨hc, -, hblank⟩ := isBareChar_iff.1 (hx.plain rfl c (by simp))
    rw [Import.afterClosing?, List.cons_append, Text.trimStart_of_clear (Text.clear_cons.2 hblank)]
    split
    · rename_i hcons
      exact absurd (List.cons_eq_cons.1 hcons).1 hc
    · rfl

/-- The address in quotes at the front of the argument of a call, with its quote and what is behind
the call. -/
def quotedAddress? : Text → Option (Option Char × Text × Text)
  | [] => none
  | q :: r =>
    if isQuote q then (Import.quotedArgument? q r).map fun u => (some q, u.1, u.2) else none

/-- The address without quotes at the front of the argument of a call. -/
def bareAddress? (arg : Text) : Option (Option Char × Text × Text) :=
  (Import.afterClosing? (arg.dropWhile isBareChar)).map fun rest =>
    (none, arg.takeWhile isBareChar, rest)

/-- The reference by an address that begins at `start`, with its quote, in the call at the front of
a text. -/
def ofAddress (start : Nat) (s : Text) (u : Option Char × Text × Text) : AssetRef :=
  ⟨s.take (s.length - u.2.2.length), u.2.1, u.1, start + u.1.toList.length,
    start + u.1.toList.length + u.2.1.length⟩

/-- A call is its word, blanks, and an address, in quotes if that is possible. -/
theorem urlCall?_eq (at₀ : Nat) (s : Text) :
    urlCall? at₀ s = (afterWord? "url(".toList s).bind fun inner =>
      ((quotedAddress? (Text.trimStart isBlank inner)).or
        (bareAddress? (Text.trimStart isBlank inner))).map fun u =>
          (ofAddress (at₀ + 4 + (Text.leading isBlank inner).length) s u, u.2.2) := by
  rw [urlCall?]
  cases afterWord? "url(".toList s with
  | none => rfl
  | some inner =>
    rw [Option.bind_some]
    dsimp only
    generalize Text.trimStart isBlank inner = arg
    cases arg with
    | nil => rfl
    | cons q r =>
      dsimp only
      rw [quotedAddress?, bareAddress?]
      split_ifs
      · cases Import.quotedArgument? q r with
        | some u => rfl
        | none =>
          rw [Option.map_none, Option.none_or, Option.map_map]
          rfl
      · rw [Option.none_or, Option.map_map]
        rfl

/-- What is found in the argument `arg ++ (x ++ s)` when an address in its slot is `x`, and what is
found there when it is `y`. -/
inductive Alike (arg x y s : Text) : Option Char × Text × Text → Option Char × Text × Text → Prop
  | before {q : Option Char} {url rest : Text} (hurl : q.toList.length + url.length ≤ arg.length)
    (hrest : rest.length ≤ arg.length) :
    Alike arg x y s (q, url, rest ++ (x ++ s)) (q, url, rest ++ (y ++ s))
  | across {q : Option Char} {url u rest : Text} (hurl : q.toList.length + url.length = arg.length)
    (hrest : rest.length ≤ s.length) :
    Alike arg x y s (q, url ++ (x ++ u), rest) (q, url ++ (y ++ u), rest)

theorem length_of_quotedArgument? {url rest : Text}
    (h : Import.quotedArgument? q r = some (url, rest)) :
    url.length ≤ r.length ∧ rest.length ≤ r.length := by
  obtain ⟨tail, rfl, htail⟩ := Import.exists_of_quotedArgument? h
  obtain ⟨gap, -, rfl⟩ := Import.exists_of_afterClosing? htail
  simp only [List.length_append, List.length_cons]
  omega

theorem notMem_of_unquoted (hq : isQuote q = true) (hx : ∀ c ∈ x, isQuote c = false) : q ∉ x :=
  fun hmem => by
    rw [hx q hmem] at hq
    cases hq

theorem Slot.quotedAddress? (h : Slot quote front s) (hx : Fits quote x) (hy : Fits quote y)
    (arg : Text) : Option.Rel (Alike arg x y s) (quotedAddress? (arg ++ (x ++ s)))
      (quotedAddress? (arg ++ (y ++ s))) := by
  cases arg with
  | nil =>
    have hnone : ∀ {z : Text}, Fits quote z → AssetRef.quotedAddress? (z ++ s) = none := by
      intro z hz
      obtain ⟨c, z, rfl⟩ := List.exists_cons_of_ne_nil hz.ne_nil
      rw [List.cons_append, AssetRef.quotedAddress?, if_neg (by simp [hz.unquoted c])]
    rw [List.nil_append, List.nil_append, hnone hx, hnone hy]
    exact .none
  | cons q r =>
    rw [List.cons_append, List.cons_append, AssetRef.quotedAddress?, AssetRef.quotedAddress?]
    by_cases hq : isQuote q = true
    · have hparts : ∀ {z : Text}, Fits quote z → _ := fun hz =>
        Import.quotedArgument?_parts (notMem_of_unquoted hq hz.unquoted)
          (h.afterClosing?_eq_none hz) r
      rw [if_pos hq, if_pos hq, hparts hx, hparts hy]
      cases hr : Import.quotedArgument? q r with
      | some u =>
        obtain ⟨hurl, hrest⟩ := length_of_quotedArgument? hr
        refine .some (.before ?_ ?_) <;> simp <;> omega
      | none =>
        cases hs : Import.quotedArgument? q s with
        | some u =>
          obtain ⟨hurl, hrest⟩ := length_of_quotedArgument? hs
          refine .some (.across ?_ hrest)
          simp
          omega
        | none => exact .none
    · rw [if_neg hq, if_neg hq]
      exact .none

theorem Slot.bareAddress? (h : Slot quote front s) (hx : Fits quote x) (hy : Fits quote y)
    (harg : arg <:+ front) (hne : quote ≠ none → arg ≠ []) :
    Option.Rel (Alike arg x y s) (bareAddress? (arg ++ (x ++ s)))
      (bareAddress? (arg ++ (y ++ s))) := by
  by_cases hall : Text.All isBareChar arg
  · cases h with
    | @quoted f _ q hq =>
      obtain ⟨r, rfl⟩ := exists_of_suffix harg (hne (by simp))
      have hbare := (isBareChar_iff.1 (hall q (by simp))).2.1
      rw [hq] at hbare
      cases hbare
    | @bare _ _ _ gap' rest _ _ gaps' =>
      have hbare : ∀ {z : Text}, Fits none z →
          AssetRef.bareAddress? (arg ++ (z ++ (gap' ++ ')' :: rest))) =
            some (none, arg ++ (z ++ []), rest) := by
        intro z hz
        have hclear := clear_isBareChar_closing gaps' rest
        have htake := (Text.leading_of_all (Text.all_append.2 ⟨hall, hz.plain rfl⟩)
          (gap' ++ ')' :: rest))
        have hdrop := (Text.trimStart_of_all (Text.all_append.2 ⟨hall, hz.plain rfl⟩)
          (gap' ++ ')' :: rest))
        rw [Text.leading_of_clear hclear, Text.leading, List.append_assoc] at htake
        rw [Text.trimStart_of_clear hclear, Text.trimStart, List.append_assoc] at hdrop
        rw [AssetRef.bareAddress?, htake, hdrop, afterClosing?_gap gaps']
        simp
      rw [hbare hx, hbare hy]
      refine .some (.across (by simp) ?_)
      simp
      omega
  · have hbefore : ∀ {z : Text}, Fits quote z → AssetRef.bareAddress? (arg ++ (z ++ s)) =
        (Import.afterClosing? (arg.dropWhile isBareChar)).map fun rest =>
          (none, arg.takeWhile isBareChar, rest ++ (z ++ s)) := by
      intro z hz
      obtain ⟨htake, hdrop, -⟩ := Text.trim_parts hall (z ++ s)
      rw [Text.leading, Text.leading] at htake
      rw [Text.trimStart, Text.trimStart] at hdrop
      rw [AssetRef.bareAddress?, htake, hdrop,
        Import.afterClosing?_parts (h.afterClosing?_eq_none hz), Option.map_map]
      rfl
    rw [hbefore hx, hbefore hy]
    cases hclosing : Import.afterClosing? (arg.dropWhile isBareChar) with
    | none => exact .none
    | some rest =>
      obtain ⟨gap, -, hgap⟩ := Import.exists_of_afterClosing? hclosing
      have hparts := congrArg List.length (Text.leading_append_trimStart isBareChar arg)
      rw [Text.leading, Text.trimStart, hgap] at hparts
      simp only [List.length_append, List.length_cons] at hparts
      refine .some (.before ?_ ?_)
      · simp only [Option.toList_none, List.length_nil]
        omega
      · omega

/-- Both references have the same quotes, and the place of the first gets to that of the second. -/
structure Moved (p w w' : Nat) (a a' : AssetRef) : Prop where
  quote : a'.quote = a.quote
  start : MovesTo p w w' a.start a'.start
  stop : MovesTo p w w' a.stop a'.stop

/-- The same for two calls with their places. -/
structure CallMoved (p w w' : Nat) (a a' : AssetRef × Nat × Nat) : Prop where
  ref : Moved p w w' a.1 a'.1
  start : MovesTo p w w' a.2.1 a'.2.1
  stop : MovesTo p w w' a.2.2 a'.2.2

/-- In front of a slot a word ends at the slot at the latest. -/
theorem Slot.urlWord? (h : Slot quote front s) (hr : r <:+ front) (hne : r ≠ []) (t : Text) :
    afterWord? "url(".toList (r ++ t) = (afterWord? "url(".toList r).map (· ++ t) := by
  obtain ⟨f, c, rfl, hc, -⟩ := h.exists_last
  obtain ⟨g, rfl⟩ := exists_of_suffix hr hne
  rw [List.append_assoc, List.singleton_append]
  refine afterWord?_parts (fun k hk => isLetter_mark ?_ (hc.imp_right (Or.imp_left .inl))) g t
  revert k
  decide

theorem Slot.imageSet? (h : Slot quote front s) (hr : r <:+ front) (hne : r ≠ []) (t : Text) :
    AssetRef.imageSet? (r ++ t) = (AssetRef.imageSet? r).map (· ++ t) := by
  obtain ⟨f, c, rfl, hc, -⟩ := h.exists_last
  obtain ⟨g, rfl⟩ := exists_of_suffix hr hne
  have hparts : ∀ w : Text, (∀ k ∈ w.dropLast, isMild k = true ∧ isBlank k = false) →
      afterWord? w (g ++ [c] ++ t) = (afterWord? w (g ++ [c])).map (· ++ t) := fun w hw => by
    rw [List.append_assoc, List.singleton_append]
    exact afterWord?_parts
      (fun k hk => isLetter_mark (hw k hk) (hc.imp_right (Or.imp_left .inl))) g t
  rw [AssetRef.imageSet?, AssetRef.imageSet?, hparts _ (by decide), hparts _ (by decide)]
  cases afterWord? "-webkit-image-set(".toList (g ++ [c]) <;> rfl

/-- The same call is found, up to its address. -/
theorem Alike.stepsTo {p lead : Nat} {u u' : Option Char × Text × Text} (h : Alike arg x y s u u')
    (hr : r.length = 4 + lead + arg.length) (hn : n + r.length = p) :
    StepsTo (CallMoved p x.length y.length) p x.length y.length n n
      ((ofAddress (n + 4 + lead) (r ++ (x ++ s)) u, n,
        n + (ofAddress (n + 4 + lead) (r ++ (x ++ s)) u).raw.length),
        (ofAddress (n + 4 + lead) (r ++ (x ++ s)) u).raw.length)
      ((ofAddress (n + 4 + lead) (r ++ (y ++ s)) u', n,
        n + (ofAddress (n + 4 + lead) (r ++ (y ++ s)) u').raw.length),
        (ofAddress (n + 4 + lead) (r ++ (y ++ s)) u').raw.length) := by
  have hraw : ∀ {start : Nat} {z : Text} {u : Option Char × Text × Text},
      (ofAddress start (r ++ (z ++ s)) u).raw.length =
        r.length + z.length + s.length - u.2.2.length := by
    intro start z u
    simp only [ofAddress, List.length_take, List.length_append]
    omega
  cases h with
  | @before q url rest hurl hrest =>
    have hends : MovesTo p x.length y.length
        (n + (r.length + x.length + s.length - (rest ++ (x ++ s)).length))
        (n + (r.length + y.length + s.length - (rest ++ (y ++ s)).length)) := by
      simp only [List.length_append, MovesTo]
      omega
    refine ⟨⟨⟨rfl, ?_, ?_⟩, movesTo_of_le (show n ≤ p by omega), ?_⟩, ?_, ?_, ?_⟩
    · exact movesTo_of_le (by dsimp only [ofAddress]; omega)
    · exact movesTo_of_le (by dsimp only [ofAddress]; omega)
    · simpa only [hraw] using hends
    · simpa only [hraw] using hends
    · rw [hraw]
      simp only [List.length_append]
      omega
    · rw [hraw]
      simp only [List.length_append]
      omega
  | @across q url v rest hurl hrest =>
    have hends : MovesTo p x.length y.length
        (n + (r.length + x.length + s.length - rest.length))
        (n + (r.length + y.length + s.length - rest.length)) := by
      unfold MovesTo
      omega
    refine ⟨⟨⟨rfl, ?_, ?_⟩, movesTo_of_le (show n ≤ p by omega), ?_⟩, ?_, ?_, ?_⟩
    · exact movesTo_of_le (by dsimp only [ofAddress]; omega)
    · simp only [ofAddress, List.length_append, MovesTo]
      omega
    · simpa only [hraw] using hends
    · simpa only [hraw] using hends
    · rw [hraw]
      dsimp only
      omega
    · rw [hraw]
      dsimp only
      omega

theorem rel_or {α β : Type} {R : α → β → Prop} {a c : Option α} {b d : Option β}
    (h : Option.Rel R a b) (h' : Option.Rel R c d) : Option.Rel R (a.or c) (b.or d) := by
  cases h with
  | some hab => exact .some hab
  | none => exact h'

/-- The quote of a slot does not belong to the word of a call and the blanks behind it. -/
theorem Slot.not_blank (h : Slot quote front s) (hquoted : quote ≠ none)
    (hword : IsWord "url(".toList word) (hinner : Text.All isBlank inner)
    (hr : word ++ inner <:+ front) : False := by
  obtain ⟨f, c, rfl, -, hc⟩ := h.exists_last
  obtain ⟨u, rfl, -⟩ := exists_bracket_of_call hword
  obtain ⟨g, hg⟩ := exists_of_suffix hr (by simp)
  have hquote := hc hquoted
  rcases List.eq_nil_or_concat inner with rfl | ⟨inner, d, rfl⟩
  · rw [List.append_nil] at hg
    obtain rfl : '(' = c := by simpa using (List.append_inj' hg rfl).2
    cases hquote
  · rw [List.concat_eq_append, ← List.append_assoc] at hg
    obtain rfl : d = c := by simpa using (List.append_inj' hg rfl).2
    have hblank := isBlank_of_isQuote hquote
    rw [hinner d (by simp)] at hblank
    cases hblank

/-- A call that begins in front of a slot is found there, up to its address, whatever address is in
the slot. -/
theorem Slot.callAt {p : Nat} (h : Slot quote front s) (hx : Fits quote x) (hy : Fits quote y)
    (hr : r <:+ front) (hne : r ≠ []) (hn : n + r.length = p) :
    Option.Rel (StepsTo (CallMoved p x.length y.length) p x.length y.length n n)
      (callAt n (r ++ (x ++ s))) (callAt n (r ++ (y ++ s))) := by
  rw [AssetRef.callAt, AssetRef.callAt, urlCall?_eq, urlCall?_eq, h.urlWord? hr hne,
    h.urlWord? hr hne]
  cases hword : afterWord? "url(".toList r with
  | none => exact .none
  | some inner =>
    obtain ⟨word, rfl, hword'⟩ := exists_isWord_of_afterWord? hword
    have hinner : inner <:+ front := (List.suffix_append word inner).trans hr
    have hlength : word.length = 4 := hword'.length_eq
    obtain ⟨lead, arg, hlead, harg, hparts⟩ : ∃ lead arg, Text.leading isBlank inner = lead ∧
        Text.trimStart isBlank inner = arg ∧ lead ++ arg = inner :=
      ⟨_, _, rfl, rfl, Text.leading_append_trimStart isBlank inner⟩
    have hargne : quote ≠ none → arg ≠ [] := by
      rintro hquoted rfl
      have hblank := Text.all_leading isBlank inner
      rw [hlead, ← List.append_nil lead, hparts] at hblank
      exact h.not_blank hquoted hword' hblank hr
    have htrim : ∀ {z : Text}, Fits quote z → Text.leading isBlank (inner ++ (z ++ s)) = lead ∧
        Text.trimStart isBlank (inner ++ (z ++ s)) = arg ++ (z ++ s) := by
      intro z hz
      by_cases hblank : Text.All isBlank inner
      · have hnil : arg = [] := by
          rw [← harg, ← List.append_nil inner, Text.trimStart_of_all hblank]
          rfl
        have hclear : Text.Clear isBlank (z ++ s) := by
          obtain ⟨c, z, rfl⟩ := List.exists_cons_of_ne_nil hz.ne_nil
          have hquote : quote = none := Classical.byContradiction fun hq => hargne hq hnil
          exact Text.clear_cons.2 (isBareChar_iff.1 (hz.plain hquote c (by simp))).2.2
        rw [Text.leading_of_all hblank, Text.leading_of_clear hclear, Text.trimStart_of_all hblank,
          Text.trimStart_of_clear hclear, ← hparts, hnil]
        exact ⟨by simp, rfl⟩
      · obtain ⟨hfront, hback, -⟩ := Text.trim_parts hblank (z ++ s)
        exact ⟨hfront.trans hlead, by rw [hback, harg]⟩
    simp only [Option.map_some, Option.bind_some, (htrim hx).1, (htrim hx).2, (htrim hy).1,
      (htrim hy).2]
    have hsuffix : arg <:+ front := (hparts ▸ List.suffix_append lead arg).trans hinner
    have hfound := rel_or (h.quotedAddress? hx hy arg) (h.bareAddress? hx hy hsuffix hargne)
    generalize (AssetRef.quotedAddress? (arg ++ (x ++ s))).or
      (AssetRef.bareAddress? (arg ++ (x ++ s))) = o at hfound
    generalize (AssetRef.quotedAddress? (arg ++ (y ++ s))).or
      (AssetRef.bareAddress? (arg ++ (y ++ s))) = o' at hfound
    cases hfound with
    | none => exact .none
    | some hab =>
      have hplace : (word ++ inner).length = 4 + lead.length + arg.length := by
        rw [← hparts, List.length_append, List.length_append, hlength, Nat.add_assoc]
      exact .some (hab.stepsTo hplace hn)

end AssetRef

end StyleSplice
