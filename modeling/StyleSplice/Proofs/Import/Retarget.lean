import StyleSplice.Import.Directive
import StyleSplice.Proofs.Sheet.Gaps
import StyleSplice.Proofs.Text.Cuts

/-!
# Imports with another target

The target of an import stands in its parameters in one of three forms. Another target that is put
in its place is read back, with the same conditions behind it, as long as the form has room for it:
the text must not hold what ends the form, and no white space at its ends.
-/

namespace StyleSplice

theorem isBlank_of_isQuote {q : Char} (h : isQuote q = true) : isBlank q = false := by
  simp only [isQuote, Bool.or_eq_true, beq_iff_eq] at h
  rcases h with rfl | rfl <;> decide

theorem ne_bracket_of_isQuote {q : Char} (h : isQuote q = true) : q ≠ ')' := by
  rintro rfl
  revert h
  decide

theorem exists_of_afterWord? {w s r : Text} (h : afterWord? w s = some r) :
    ∃ v, s = v ++ r ∧ v.length = w.length ∧ ∀ s', afterWord? w (v ++ s') = some s' := by
  induction w generalizing s with
  | nil =>
    cases h
    exact ⟨[], rfl, rfl, fun s' => rfl⟩
  | cons k w ih =>
    cases s with
    | nil => cases h
    | cons c s =>
      unfold afterWord? at h
      split at h
      · rename_i hc
        obtain ⟨v, rfl, hv, hall⟩ := ih h
        exact ⟨c :: v, rfl, by simp [hv], fun s' => by simp [afterWord?, hc, hall]⟩
      · cases h

namespace Import

variable {q : Char} {params raw tail rest url : Text} {d : Import}

/-- A bracket that does not close behind a text does not close behind it and a quote either. -/
theorem afterClosing?_append_quote (hq : isQuote q = true) {s : Text} (h : afterClosing? s = none)
    (tail : Text) : afterClosing? (s ++ q :: tail) = none := by
  have hblank := isBlank_of_isQuote hq
  have hne := ne_bracket_of_isQuote hq
  induction s with
  | nil => simp [afterClosing?, Text.trimStart, hblank, hne]
  | cons c s ih =>
    cases hc : isBlank c with
    | true =>
      have h' : afterClosing? s = none := by simpa [afterClosing?, Text.trimStart, hc] using h
      simpa [afterClosing?, Text.trimStart, hc] using ih h'
    | false =>
      have hc' : c ≠ ')' := by
        rintro rfl
        simp [afterClosing?, Text.trimStart, hc] at h
      simp [afterClosing?, Text.trimStart, hc, hc']

/-- A text without a place where the argument ends is the argument if it ends behind the text. -/
theorem quotedArgument?_append (hq : isQuote q = true) (hraw : quotedArgument? q raw = none)
    (ht : afterClosing? tail = some rest) :
    quotedArgument? q (raw ++ q :: tail) = some (raw, rest) := by
  have hnone : ∀ {c : Char} {x : Option (Text × Text)}, Text.consPart c x = none → x = none := by
    intro c x hx
    cases x with
    | none => rfl
    | some x => cases hx
  induction raw with
  | nil => simp [quotedArgument?, ht]
  | cons c raw ih =>
    rw [List.cons_append, quotedArgument?]
    unfold quotedArgument? at hraw
    split at hraw
    · rename_i hc
      split at hraw
      · cases hraw
      · rename_i hclosing
        rw [if_pos hc, afterClosing?_append_quote hq hclosing, ih (hnone hraw)]
        rfl
    · rename_i hc
      rw [if_neg hc, ih (hnone hraw)]
      rfl

/-- Without its quote an argument does not end. -/
theorem quotedArgument?_eq_none {q : Char} {s : Text} (h : q ∉ s) : quotedArgument? q s = none := by
  induction s with
  | nil => rfl
  | cons c s ih =>
    obtain ⟨hc, hs⟩ := not_or.1 (mt List.mem_cons.2 h)
    rw [quotedArgument?, if_neg (Ne.symm hc), ih hs]
    rfl

/-- The argument is the text in front of the first place where it ends. -/
theorem exists_of_quotedArgument? {s : Text} (h : quotedArgument? q s = some (raw, rest)) :
    ∃ tail, s = raw ++ q :: tail ∧ afterClosing? tail = some rest := by
  induction s generalizing raw with
  | nil => cases h
  | cons c s ih =>
    unfold quotedArgument? at h
    split at h
    · rename_i hc
      subst hc
      split at h
      · cases h
        exact ⟨s, rfl, by assumption⟩
      · obtain ⟨u, rfl, hu⟩ := Text.consPart_eq_some_iff.1 h
        obtain ⟨tail, rfl, ht⟩ := ih hu
        exact ⟨tail, rfl, ht⟩
    · obtain ⟨u, rfl, hu⟩ := Text.consPart_eq_some_iff.1 h
      obtain ⟨tail, rfl, ht⟩ := ih hu
      exact ⟨tail, rfl, ht⟩

/-- An argument without quotes goes as far as the first bracket, less the white space in front of
the bracket. -/
theorem exists_of_bareArgument? {opened : Nat} {s : Text} {t : RawTarget}
    (h : bareArgument? opened s = some t) :
    ∃ raw gap rest, s = raw ++ (gap ++ ')' :: rest) ∧ Text.All isBlank gap ∧
      Text.trimEnd isBlank raw = raw ∧ ')' ∉ raw ∧ t = ⟨raw, none, true, opened, rest⟩ := by
  obtain ⟨⟨front, rest⟩, hcut, rfl⟩ := Option.map_eq_some_iff.1 h
  obtain ⟨c, hc, rfl, hfront⟩ := Text.exists_of_cutAt hcut
  obtain rfl : c = ')' := by simpa using hc
  refine ⟨Text.trimEnd isBlank front, Text.trailing isBlank front, rest, ?_,
    Text.all_trailing isBlank front, Text.trimEnd_trimEnd isBlank front, fun hm => ?_, rfl⟩
  · rw [← List.append_assoc, Text.trimEnd_append_trailing]
  · simpa using hfront ')' ((Text.trimEnd_isPrefix isBlank front).subset hm)

theorem bareArgument?_append {opened : Nat} {gap : Text} (gaps : Text.All isBlank gap)
    (ended : Text.trimEnd isBlank raw = raw) (unclosed : ')' ∉ raw) :
    bareArgument? opened (raw ++ (gap ++ ')' :: rest)) = some ⟨raw, none, true, opened, rest⟩ := by
  have hfront : ∀ x ∈ raw ++ gap, (x == ')') = false := by
    intro x hx
    rw [beq_eq_false_iff_ne]
    rintro rfl
    rcases List.mem_append.1 hx with hx | hx
    · exact unclosed hx
    · exact absurd (gaps ')' hx) (by decide)
  rw [bareArgument?, ← List.append_assoc, Text.cutAt_append (by simp) hfront, Option.map_some,
    Text.trimEnd_append_of_all raw gaps, ended]

/-- The forms in which a target stands between the text in front of it and the text behind it. -/
inductive TargetForm : Text → Text → RawTarget → Prop
  | quotedUrl {w lead raw tail rest : Text} {q : Char} (length : w.length = 4)
    (word : ∀ s, afterWord? "url(".toList (w ++ s) = some s) (blank : Text.All isBlank lead)
    (quote : isQuote q = true) (inner : quotedArgument? q (raw ++ q :: tail) = some (raw, rest))
    (closed : afterClosing? tail = some rest) :
    TargetForm (w ++ (lead ++ [q])) (q :: tail) ⟨raw, some q, true, 4 + lead.length + 1, rest⟩
  | bareUrl {w lead raw gap rest : Text} (length : w.length = 4)
    (word : ∀ s, afterWord? "url(".toList (w ++ s) = some s) (blank : Text.All isBlank lead)
    (clear : Text.Clear isBlank (raw ++ (gap ++ ')' :: rest)))
    (gaps : Text.All isBlank gap) (ended : Text.trimEnd isBlank raw = raw)
    (unclosed : ')' ∉ raw)
    (plain : ∀ q r, raw ++ (gap ++ ')' :: rest) = q :: r → isQuote q = true →
      quotedArgument? q r = none) :
    TargetForm (w ++ lead) (gap ++ ')' :: rest) ⟨raw, none, true, 4 + lead.length, rest⟩
  | quoted {raw rest : Text} {q : Char} (quote : isQuote q = true) (inner : q ∉ raw) :
    TargetForm [q] (q :: rest) ⟨raw, some q, false, 1, rest⟩

theorem TargetForm.start_eq {front back : Text} {t : RawTarget} (h : TargetForm front back t) :
    t.start = front.length := by
  cases h with
  | quotedUrl length => simp [length]; omega
  | bareUrl length => simp [length]
  | quoted => rfl

theorem TargetForm.start_pos {front back : Text} {t : RawTarget} (h : TargetForm front back t) :
    1 ≤ t.start := by
  cases h with
  | quotedUrl => exact Nat.le_add_left 1 _
  | bareUrl => exact Nat.le_add_right_of_le (by decide)
  | quoted => exact Nat.le_refl 1

theorem exists_form_of_rawTarget? {t : RawTarget} (h : rawTarget? params = some t) :
    ∃ front back, params = front ++ (t.raw ++ back) ∧ TargetForm front back t := by
  unfold rawTarget? at h
  split at h
  · rename_i inner hinner
    obtain ⟨w, rfl, hw, hword⟩ := exists_of_afterWord? hinner
    have hlead := Text.all_leading isBlank inner
    have hclear := Text.clear_trimStart isBlank inner
    rw [← Text.leading_append_trimStart isBlank inner]
    generalize Text.leading isBlank inner = lead at h hlead
    generalize Text.trimStart isBlank inner = s at h hclear
    have hbare : (∀ q r, s = q :: r → isQuote q = true → quotedArgument? q r = none) →
        bareArgument? (4 + lead.length) s = some t →
        ∃ front back, w ++ (lead ++ s) = front ++ (t.raw ++ back) ∧ TargetForm front back t := by
      intro hplain hb
      obtain ⟨raw, gap, rest, rfl, hgap, hended, hraw, rfl⟩ := exists_of_bareArgument? hb
      exact ⟨w ++ lead, _, by simp, .bareUrl hw hword hlead hclear hgap hended hraw hplain⟩
    split at h
    · rename_i q r
      split at h
      · rename_i hq
        split at h
        · rename_i raw rest harg
          cases h
          obtain ⟨tail, rfl, ht⟩ := exists_of_quotedArgument? harg
          exact ⟨w ++ (lead ++ [q]), q :: tail, by simp, .quotedUrl hw hword hlead hq harg ht⟩
        · rename_i harg
          exact hbare (fun q' r' hs hq' => by cases hs; exact harg) h
      · rename_i hq
        exact hbare (fun q' r' hs hq' => by cases hs; exact absurd hq' hq) h
    · cases h
  · split at h
    · rename_i q r _
      split at h
      · rename_i hq
        obtain ⟨⟨raw, rest⟩, hcut, rfl⟩ := Option.map_eq_some_iff.1 h
        obtain ⟨c, hc, rfl, hraw⟩ := Text.exists_of_cutAt hcut
        obtain rfl : c = q := by simpa using hc
        exact ⟨[c], c :: rest, rfl, .quoted hq fun hm => by simpa using hraw c hm⟩
      · cases h
    · cases h

theorem rawTarget?_of_form {front back : Text} {t : RawTarget} (h : TargetForm front back t) :
    rawTarget? (front ++ (t.raw ++ back)) = some t := by
  cases h with
  | @quotedUrl w lead raw tail rest q length word blank quote inner closed =>
    have hclear : Text.Clear isBlank (q :: (raw ++ q :: tail)) :=
      Text.clear_cons.2 (isBlank_of_isQuote quote)
    unfold rawTarget?
    simp only [List.append_assoc, List.singleton_append, word, Text.leading_of_all blank,
      Text.leading_of_clear hclear, List.append_nil, Text.trimStart_of_all blank,
      Text.trimStart_of_clear hclear, quote, if_true, inner]
  | @bareUrl w lead raw gap rest length word blank clear gaps ended unclosed plain =>
    have hcut : bareArgument? (4 + lead.length) (raw ++ (gap ++ ')' :: rest)) =
        some ⟨raw, none, true, 4 + lead.length, rest⟩ := bareArgument?_append gaps ended unclosed
    unfold rawTarget?
    simp only [List.append_assoc, word, Text.leading_of_all blank, Text.leading_of_clear clear,
      List.append_nil, Text.trimStart_of_all blank, Text.trimStart_of_clear clear]
    cases hs : raw ++ (gap ++ ')' :: rest) with
    | nil => simp at hs
    | cons q r =>
      rw [hs] at hcut
      by_cases hq : isQuote q = true
      · simp only [hq, if_true, plain q r hs hq]
        exact hcut
      · simp only [hq, Bool.false_eq_true, if_false]
        exact hcut
  | @quoted raw rest q quote inner =>
    have hword : afterWord? "url(".toList (q :: (raw ++ q :: rest)) = none := by
      simp only [isQuote, Bool.or_eq_true, beq_iff_eq] at quote
      rcases quote with rfl | rfl <;> rfl
    have hcut : Text.cutAt (· == q) (raw ++ q :: rest) = some (raw, rest) :=
      Text.cutAt_of_notMem inner rest
    unfold rawTarget?
    simp only [List.singleton_append, hword, quote, if_true, hcut, Option.map_some]

/-- What must not be in a text that stands in the place of a target: what ends the target there. -/
def Unended (quote : Option Char) (inUrl : Bool) (url : Text) : Prop :=
  match quote, inUrl with
  | some q, true => quotedArgument? q url = none
  | some q, false => q ∉ url
  | none, _ => ')' ∉ url

/-- The place of the target has room for the text: it does not hold what ends the target there, and
nothing is cut off at its ends. -/
def CanHold (d : Import) (url : Text) : Prop :=
  Text.Trimmed isBlank url ∧ Unended d.quote d.inUrl url

instance : (quote : Option Char) → (inUrl : Bool) → Decidable (Unended quote inUrl url)
  | some q, true => inferInstanceAs (Decidable (quotedArgument? q url = none))
  | some q, false => inferInstanceAs (Decidable (q ∉ url))
  | none, _ => inferInstanceAs (Decidable (')' ∉ url))

instance : Decidable (d.CanHold url) :=
  inferInstanceAs (Decidable (Text.Trimmed isBlank url ∧ Unended d.quote d.inUrl url))

/-- Another target that there is room for stands in the same form. -/
theorem TargetForm.retargeted {front back : Text} {t : RawTarget} (h : TargetForm front back t)
    (hne : url ≠ []) (hquote : Text.Clear isQuote url) (htrim : Text.Trimmed isBlank url)
    (hroom : Unended t.quote t.inUrl url) : TargetForm front back { t with raw := url } := by
  cases h with
  | quotedUrl length word blank quote inner closed =>
    exact .quotedUrl length word blank quote (quotedArgument?_append quote hroom closed) closed
  | @bareUrl w lead raw gap rest length word blank clear gaps ended unclosed plain =>
    refine .bareUrl length word blank (htrim.1.append hne _) gaps htrim.2 hroom fun q r hs hq => ?_
    have hfirst := hquote.append hne (gap ++ ')' :: rest)
    rw [hs, Text.clear_cons, hq] at hfirst
    cases hfirst
  | quoted quote inner => exact .quoted quote hroom

/-- An import is read again with its new target and everything else as it was. -/
theorem decode?_retargeted {origin : Option Text} (h : decode? params origin = some d)
    (hne : url ≠ []) (hquote : Text.Clear isQuote url) (hroom : d.CanHold url) :
    decode? (d.retargeted params url) origin = some (d.withTarget url) := by
  unfold decode? at h
  split at h
  · cases h
  · rename_i t ht
    obtain ⟨front, back, rfl, hform⟩ := exists_form_of_rawTarget? ht
    rcases hl : takeLayer (Text.trim isBlank t.rest) with ⟨layer, rest⟩
    rcases hs : takeSupports rest with ⟨supports, media⟩
    simp only [hl, hs, Option.some.injEq] at h
    subst h
    have hread := rawTarget?_of_form (hform.retargeted hne hquote hroom.1 hroom.2)
    have htrim : Text.trim isBlank url = url := by
      simpa using hroom.1.trim_eq Text.all_nil Text.all_nil
    have hsplice : (front ++ (t.raw ++ back)).take t.start ++ url ++
        (front ++ (t.raw ++ back)).drop (t.start + t.raw.length) = front ++ (url ++ back) := by
      simp [hform.start_eq]
    unfold decode? retargeted
    rw [hsplice, hread]
    simp only [hl, hs, htrim, withTarget]

end Import

end StyleSplice
