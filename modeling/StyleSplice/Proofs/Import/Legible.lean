import StyleSplice.Proofs.Import.Written
import StyleSplice.Proofs.Sheet.Whole

/-!
# Texts that are read alike by both readers

The reader of conditions knows quotes and round brackets, but neither escapes nor comments nor square
brackets. On a text in which those hide nothing from it, it finds the tokens that the reader of sheets
finds.
-/

namespace StyleSplice

/-- The tokens that a reader sees who knows quotes and round brackets only: no escape stands for one
of them or for white space, no comment holds one, a string ends at its next quote, and brackets are
closed by their own kind. -/
def Lexicon.legible : Lexicon where
  char inner c := inner = false → isStop c = false ∧ c ≠ '\ufeff'
  escaped c := (isQuote c = false ∧ c ≠ '(' ∧ c ≠ ')') ∧ isBlank c = false ∧ isGap c = false
  comment body := ∀ c ∈ body, isQuote c = false ∧ c ≠ '(' ∧ c ≠ ')'
  string q body := q ∉ body
  brackets o c := (o = '(' ∧ c = ')') ∨ (o = '[' ∧ c = ']')

/-- A text made of tokens that both readers see. -/
def Legible (inner : Bool) (s : Text) : Prop := Made .legible inner s

variable {l : Lexicon} {inner : Bool} {a r s t u : Text}

theorem Legible.whole (h : Legible inner s) : Whole inner s :=
  Made.whole (fun _ hc => (hc rfl).1) h

/-- Characters without a meaning in front of a legible text. -/
theorem Legible.chars
    (hs : (s.all fun c => isSingle c && (c != '/' && (!isStop c && c != '\ufeff'))) = true)
    (ht : Legible inner t) : Legible inner (s ++ t) := by
  refine Made.chars (fun c hc => ?_) ht
  have hc' := List.all_eq_true.1 hs c hc
  simp only [Bool.and_eq_true, bne_iff_ne, Bool.not_eq_true'] at hc'
  exact ⟨hc'.1, hc'.2.1, fun _ => hc'.2.2⟩

theorem Legible.group (hu : Legible true u) (ht : Legible inner t) :
    Legible inner ('(' :: (u ++ ')' :: t)) :=
  .bracketed (.inl rfl) (.inl rfl) (.inl ⟨rfl, rfl⟩) hu ht

/-- The characters that are tokens of their own whatever stands beside them. -/
def isMild (c : Char) : Bool := isSingle c && (c != '/' && c != '*')

theorem isMild_iff {c : Char} : isMild c = true ↔ isSingle c = true ∧ c ≠ '/' ∧ c ≠ '*' := by
  simp [isMild]

theorem cases_of_not_isMild {c : Char} (h : isMild c ≠ true) :
    c ∈ ['\x22', '\x27', '\\', '(', '[', ')', ']', '/', '*'] := by
  by_contra hc
  simp only [List.mem_cons, List.not_mem_nil, or_false, not_or] at hc
  refine h (isMild_iff.2 ⟨isSingle_iff.2 ⟨?_, ?_⟩, ?_⟩) <;> simp_all [isQuote]

theorem isMild_of_isBlank {c : Char} (h : isBlank c = true) : isMild c = true := by
  by_contra hc
  have hcases := cases_of_not_isMild hc
  simp only [List.mem_cons, List.not_mem_nil, or_false] at hcases
  rcases hcases with rfl | rfl | rfl | rfl | rfl | rfl | rfl | rfl | rfl <;> revert h <;> decide

theorem isMild_of_isLetter {k c : Char} (hk : isMild k = true) (h : isLetter k c = true) :
    isMild c = true := by
  by_contra hc
  have hcases := cases_of_not_isMild hc
  have hck : c = k := by
    simp only [List.mem_cons, List.not_mem_nil, or_false] at hcases
    rcases hcases with rfl | rfl | rfl | rfl | rfl | rfl | rfl | rfl | rfl <;>
      simpa [isLetter] using h
  exact hc (hck ▸ hk)

/-- Tokens behind tokens. A star could make a comment of a slash in front of it. -/
theorem Made.append (hs : Made l inner s) (ht : Made l inner t) (hstar : t.head? ≠ some '*') :
    Made l inner (s ++ t) := by
  induction hs with
  | nil => exact ht
  | char single allowed comment rest ih =>
    exact .char single allowed (fun hc => head?_append_ne hstar (comment hc)) (ih ht)
  | escape allowed rest ih => exact .escape allowed (ih ht)
  | comment ending allowed rest ih => simpa using Made.comment ending allowed (ih ht)
  | string quote closed allowed rest ih => simpa using Made.string quote closed allowed (ih ht)
  | bracketed opening closing allowed within rest _ ih =>
    simpa using Made.bracketed opening closing allowed within (ih ht)

theorem head?_ne_of_isMild (hs : ∀ c ∈ s, isMild c = true) : s.head? ≠ some '*' := fun h =>
  (isMild_iff.1 (hs '*' (List.mem_of_mem_head? h))).2.2 rfl

/-- A text of tokens is cut behind mild characters. -/
theorem Made.of_append (ha : ∀ c ∈ a, isMild c = true) (h : Made l inner (a ++ s)) :
    Made l inner a ∧ Made l inner s := by
  induction a with
  | nil => exact ⟨.nil, h⟩
  | cons c a ih =>
    obtain ⟨hsingle, hslash, -⟩ := isMild_iff.1 (ha c List.mem_cons_self)
    obtain ⟨hquote, hbackslash, hopened, -⟩ := isSingle_iff.1 hsingle
    rw [List.cons_append] at h
    generalize hr : a ++ s = r at h
    cases h with
    | char single allowed comment rest =>
      subst hr
      obtain ⟨hfront, hrest⟩ := ih (fun x hx => ha x (List.mem_cons_of_mem _ hx)) rest
      exact ⟨.char single allowed (fun hc => absurd hc hslash) hfront, hrest⟩
    | escape => exact absurd rfl hbackslash
    | comment => exact absurd rfl hslash
    | string quote =>
      rw [hquote] at quote
      cases quote
    | bracketed opening => exact absurd opening hopened

theorem Legible.of_bracket (h : Legible inner ('(' :: r)) :
    ∃ u t, r = u ++ ')' :: t ∧ Legible true u ∧ Legible inner t := by
  cases h with
  | char single => cases single
  | string quote => cases quote
  | bracketed opening closing allowed within rest =>
    obtain rfl : _ = ')' := by simpa [Lexicon.legible] using allowed
    exact ⟨_, _, rfl, within, rest⟩

theorem Legible.of_quote {q : Char} (hq : isQuote q = true) (h : Legible inner (q :: r)) :
    ∃ u t, r = u ++ q :: t ∧ StringBody q u ∧ q ∉ u ∧ Legible inner t := by
  cases h with
  | char single =>
    rw [(isSingle_iff.1 single).1] at hq
    cases hq
  | escape => cases hq
  | comment => cases hq
  | string quote closed allowed rest => exact ⟨_, _, rfl, closed, allowed, rest⟩
  | bracketed opening => rcases opening with rfl | rfl <;> cases hq

theorem Balanced.append (hs : Balanced s) (ht : Balanced t) : Balanced (s ++ t) := by
  induction hs with
  | nil => exact ht
  | char quote opening closing rest ih => exact .char quote opening closing ih
  | quoted quote inner rest ih => simpa using Balanced.quoted quote inner ih
  | bracketed inner rest _ ih => simpa using Balanced.bracketed inner ih

theorem Balanced.chars (hs : ∀ c ∈ s, isQuote c = false ∧ c ≠ '(' ∧ c ≠ ')') : Balanced s := by
  induction s with
  | nil => exact .nil
  | cons c s ih =>
    obtain ⟨hquote, hopening, hclosing⟩ := hs c List.mem_cons_self
    exact .char hquote hopening hclosing (ih fun x hx => hs x (List.mem_cons_of_mem _ hx))

theorem Legible.balanced (h : Legible inner s) : Balanced s := by
  induction h with
  | nil => exact .nil
  | char single allowed comment rest ih =>
    obtain ⟨hquote, -, hopened, hclosed⟩ := isSingle_iff.1 single
    exact .char hquote (fun he => hopened (.inl he)) (fun he => hclosed (.inl he)) ih
  | escape allowed rest ih =>
    exact .char rfl (by decide) (by decide) (.char allowed.1.1 allowed.1.2.1 allowed.1.2.2 ih)
  | comment ending allowed rest ih =>
    have hbody : Balanced _ := Balanced.chars allowed
    have hend := hbody.append (t := '*' :: '/' :: _)
      (.char rfl (by decide) (by decide) (.char rfl (by decide) (by decide) ih))
    exact .char rfl (by decide) (by decide) (.char rfl (by decide) (by decide) hend)
  | string quote closed allowed rest ih => exact .quoted quote allowed ih
  | bracketed opening closing allowed within rest ihu ih =>
    rcases allowed with ⟨rfl, rfl⟩ | ⟨rfl, rfl⟩
    · exact .bracketed ihu ih
    · exact .char rfl (by decide) (by decide)
        (ihu.append (.char rfl (by decide) (by decide) ih))

/-- Induction over the tokens of a legible text from the last one on. All that matters of a token other
than a single character is that it does not end in white space. -/
theorem Legible.induction {P : Text → Prop} (h : Legible inner s) (nil : P [])
    (char : ∀ c t, Lexicon.legible.char inner c →
      (∀ x, (∀ y, x.head? = some y → t.head? = some y) → Legible inner x → Legible inner (c :: x)) →
      P t → P (c :: t))
    (token : ∀ u c t, isBlank c = false → isGap c = false →
      (∀ x, Legible inner x → Legible inner (u ++ c :: x)) → P t → P (u ++ c :: t)) : P s := by
  have hquote : ∀ {q : Char}, isQuote q = true → isBlank q = false ∧ isGap q = false := by
    intro q hq
    simp only [isQuote, Bool.or_eq_true, beq_iff_eq] at hq
    rcases hq with rfl | rfl <;> decide
  induction h with
  | nil => exact nil
  | char single allowed comment rest ih =>
    refine char _ _ allowed (fun x hx hlegible => ?_) (ih char token)
    exact .char single allowed (fun hc hstar => comment hc (hx _ hstar)) hlegible
  | @escape inner c t allowed rest ih =>
    exact token ['\\'] c t allowed.2.1 allowed.2.2 (fun x hx => .escape allowed hx) (ih char token)
  | @comment inner body t ending allowed rest ih =>
    have hmade : ∀ x, Legible inner x → Legible inner ('/' :: '*' :: (body ++ '*' :: '/' :: x)) :=
      fun x hx => .comment ending allowed hx
    have htoken := token ('/' :: '*' :: (body ++ ['*'])) '/' t rfl rfl
      (fun x hx => by simpa using hmade x hx) (ih char token)
    simpa using htoken
  | @string inner q body t quote closed allowed rest ih =>
    have htoken := token (q :: body) q t (hquote quote).1 (hquote quote).2
      (fun x hx => .string quote closed allowed hx) (ih char token)
    simpa using htoken
  | @bracketed inner o c u t opening closing allowed within rest _ ih =>
    have hc : isBlank c = false ∧ isGap c = false := by rcases closing with rfl | rfl <;> decide
    have htoken := token (o :: u) c t hc.1 hc.2
      (fun x hx => .bracketed opening closing allowed within hx) (ih char token)
    simpa using htoken

theorem Legible.trimEnd (h : Legible inner s) : Legible inner (Text.trimEnd isBlank s) := by
  refine h.induction (P := fun s => Legible inner (Text.trimEnd isBlank s)) .nil
    (fun c t _ hcons ih => ?_) fun u c t hblank _ htoken ih => ?_
  · by_cases hc : isBlank c = false ∨ Text.trimEnd isBlank t ≠ []
    · rw [Text.trimEnd_cons hc]
      obtain ⟨v, hv⟩ := Text.trimEnd_isPrefix isBlank t
      refine hcons _ (fun y hy => ?_) ih
      rw [← hv, List.head?_append, hy]
      rfl
    · obtain ⟨hblank, hnil⟩ := not_or.1 hc
      have hcut : Text.trimEnd isBlank (c :: t) = [] := by
        simp_all [Text.trimEnd]
      rw [hcut]
      exact .nil
  · rw [Text.trimEnd_append_cons hblank]
    exact htoken _ ih

/-- Without the white space at its ends a text is legible still. -/
theorem Legible.trim (h : Legible inner s) : Legible inner (Text.trim isBlank s) := by
  rw [← Text.leading_append_trimStart isBlank s] at h
  have hstart : Legible inner (Text.trimStart isBlank s) :=
    (Made.of_append (fun c hc => isMild_of_isBlank (Text.all_leading isBlank s c hc)) h).2
  exact hstart.trimEnd

theorem isBlank_of_isGap {c : Char} (h : isGap c = true) (hc : c ≠ '\ufeff') : isBlank c = true := by
  simp only [isGap, Bool.or_eq_true, beq_iff_eq, hc, or_false, or_assoc] at h
  rcases h with rfl | rfl | rfl | rfl | rfl <;> rfl

theorem Legible.ne_of_cons {c : Char} (h : Legible false (c :: t)) : c ≠ '\ufeff' := by
  rintro rfl
  cases h with
  | char single allowed => exact (allowed rfl).2 rfl
  | string quote => cases quote
  | bracketed opening => rcases opening with h | h <;> cases h

/-- Outside brackets a legible text ends in no white space that only sheets know. -/
theorem Legible.trimmed_isGap (h : Legible false s) (hs : Text.Trimmed isBlank s) :
    Text.Trimmed isGap s := by
  have hgap : ∀ {c : Char}, c ≠ '\ufeff' → isBlank c = false → isGap c = false := by
    intro c hc hblank
    by_contra hg
    rw [isBlank_of_isGap (by simpa using hg) hc] at hblank
    cases hblank
  refine ⟨?_, ?_⟩
  · cases s with
    | nil => exact Text.clear_nil
    | cons c s => exact Text.clear_cons.2 (hgap h.ne_of_cons (Text.clear_cons.1 hs.1))
  · have hend := hs.2
    refine h.induction (P := fun s => Text.trimEnd isBlank s = s → Text.trimEnd isGap s = s)
      (fun _ => rfl) (fun c t hc _ ih ht => ?_) (fun u c t hblank hg _ ih ht => ?_) hend
    · have hcut : isBlank c = false ∨ Text.trimEnd isBlank t ≠ [] := by
        by_contra hno
        simp_all [Text.trimEnd]
      rw [Text.trimEnd_cons hcut] at ht
      have ht' : Text.trimEnd isBlank t = t := (List.cons_eq_cons.1 ht).2
      have hcut' : isGap c = false ∨ Text.trimEnd isGap t ≠ [] :=
        hcut.imp (hgap (hc rfl).2) fun hne => by rwa [ih ht', ← ht']
      rw [Text.trimEnd_cons hcut', ih ht']
    · rw [Text.trimEnd_append_cons hblank] at ht
      obtain ⟨-, ht⟩ := List.cons_eq_cons.1 (List.append_cancel_left ht)
      rw [Text.trimEnd_append_cons hg, ih ht]

end StyleSplice
