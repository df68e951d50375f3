import StyleSplice.Import.Conditions
import StyleSplice.Proofs.Import.Retarget

/-!
# Conditions are read as they are written

Behind the target of an import stand a layer, a condition on features and a list of media, each of
them or not. However they are combined, the reader finds what was written, and nodes that take the
place of the import are nested in a block for each condition that is there.
-/

namespace StyleSplice

theorem Text.foldr_consPart (t u r : Text) :
    t.foldr consPart (some (u, r)) = some (t ++ u, r) := by
  induction t with
  | nil => rfl
  | cons c t ih => rw [List.foldr_cons, ih, consPart, List.cons_append]

/-- A text stays as it is at its end if it ends in a text that does. -/
theorem Text.trimEnd_append {p : Char → Bool} {v : Text} (hv : trimEnd p v = v) (hne : v ≠ [])
    (u : Text) : trimEnd p (u ++ v) = u ++ v := by
  induction u with
  | nil => exact hv
  | cons c u ih =>
    rw [List.cons_append, trimEnd_cons (.inr (by simp [ih, hne])), ih]

/-- What is cut off at the end stands behind the last character that stays. -/
theorem Text.trimEnd_append_cons {p : Char → Bool} {c : Char} (hc : p c = false) (s t : Text) :
    trimEnd p (s ++ c :: t) = s ++ c :: trimEnd p t := by
  have hkeep : trimEnd p (c :: trimEnd p t) = c :: trimEnd p t := by
    rw [trimEnd_cons (.inl hc), trimEnd_trimEnd]
  calc
    trimEnd p (s ++ c :: t) = trimEnd p (s ++ c :: trimEnd p t ++ trailing p t) := by
      rw [List.append_assoc, List.cons_append, trimEnd_append_trailing]
    _ = trimEnd p (s ++ c :: trimEnd p t) := trimEnd_append_of_all _ (all_trailing p t)
    _ = s ++ c :: trimEnd p t := trimEnd_append hkeep (List.cons_ne_nil _ _) s

/-- Texts whose brackets match outside strings. A string ends at the next quote of its kind. -/
inductive Balanced : Text → Prop
  | nil : Balanced []
  | char {c : Char} {t : Text} (quote : isQuote c = false) (opening : c ≠ '(') (closing : c ≠ ')')
    (rest : Balanced t) : Balanced (c :: t)
  | quoted {q : Char} {u t : Text} (quote : isQuote q = true) (inner : q ∉ u)
    (rest : Balanced t) : Balanced (q :: (u ++ q :: t))
  | bracketed {u t : Text} (inner : Balanced u) (rest : Balanced t) :
    Balanced ('(' :: (u ++ ')' :: t))

/-- What stands in front of a closing bracket when so many brackets are open besides its own:
balanced texts, with closing brackets between them. -/
def ClosesAll : Nat → Text → Prop
  | 0, s => Balanced s
  | depth + 1, s => ∃ u t, s = u ++ ')' :: t ∧ Balanced u ∧ ClosesAll depth t

theorem ClosesAll.prepend {depth : Nat} {s x : Text} (hx : ∀ t, Balanced t → Balanced (x ++ t))
    (h : ClosesAll depth s) : ClosesAll depth (x ++ s) := by
  cases depth with
  | zero => exact hx s h
  | succ depth =>
    obtain ⟨u, t, rfl, hu, ht⟩ := h
    exact ⟨x ++ u, t, by simp, hx u hu, ht⟩

/-- What stands in front of a closing bracket when the text may start in a string. -/
def ClosesFrom (depth : Nat) (s : Text) : Option Char → Prop
  | none => ClosesAll depth s
  | some q => ∃ u t, s = u ++ q :: t ∧ q ∉ u ∧ ClosesAll depth t

namespace Import

theorem closedArgument?_quote {c : Char} (h : isQuote c = true) (depth : Nat) (r : Text) :
    closedArgument? none depth (c :: r) = Text.consPart c (closedArgument? (some c) depth r) := by
  cases depth <;> rw [closedArgument?, if_pos h]

theorem closedArgument?_opening (depth : Nat) (r : Text) :
    closedArgument? none depth ('(' :: r) =
      Text.consPart '(' (closedArgument? none (depth + 1) r) := by
  cases depth <;> rw [closedArgument?, if_neg (by decide), if_pos rfl]

theorem closedArgument?_closing (depth : Nat) (r : Text) :
    closedArgument? none (depth + 1) (')' :: r) =
      Text.consPart ')' (closedArgument? none depth r) := by
  rw [closedArgument?, if_neg (by decide), if_neg (by decide), if_pos rfl]

theorem closedArgument?_end (r : Text) : closedArgument? none 0 (')' :: r) = some ([], r) := rfl

theorem closedArgument?_char {c : Char} (quote : isQuote c = false) (opening : c ≠ '(')
    (closing : c ≠ ')') (depth : Nat) (r : Text) :
    closedArgument? none depth (c :: r) = Text.consPart c (closedArgument? none depth r) := by
  cases depth <;> rw [closedArgument?, if_neg (by simp [quote]), if_neg opening, if_neg closing]

theorem closedArgument?_quoted {q : Char} {u : Text} (h : q ∉ u) (depth : Nat) (t : Text) :
    closedArgument? (some q) depth (u ++ q :: t) =
      u.foldr Text.consPart (Text.consPart q (closedArgument? none depth t)) := by
  induction u with
  | nil => simp [closedArgument?]
  | cons c u ih =>
    obtain ⟨hc, hu⟩ := not_or.1 (mt List.mem_cons.2 h)
    rw [List.cons_append, closedArgument?, if_neg (Ne.symm hc), ih hu, List.foldr_cons]

/-- The search for a closing bracket passes over a balanced text. -/
theorem closedArgument?_balanced {s : Text} (h : Balanced s) (depth : Nat) (t : Text) :
    closedArgument? none depth (s ++ t) =
      s.foldr Text.consPart (closedArgument? none depth t) := by
  induction h generalizing depth t with
  | nil => rfl
  | char quote opening closing rest ih =>
    rw [List.cons_append, closedArgument?_char quote opening closing, ih, List.foldr_cons]
  | quoted quote inner rest ih =>
    rw [List.cons_append, List.append_assoc, List.cons_append, closedArgument?_quote quote,
      closedArgument?_quoted inner, ih, List.foldr_cons, List.foldr_append, List.foldr_cons]
  | bracketed inner rest ih ihs =>
    rw [List.cons_append, List.append_assoc, List.cons_append, closedArgument?_opening, ih,
      closedArgument?_closing, ihs, List.foldr_cons, List.foldr_append, List.foldr_cons]

theorem closesFrom_of_closedArgument? {quote : Option Char} {depth : Nat} {r s rest : Text}
    (h : closedArgument? quote depth r = some (s, rest)) :
    ClosesFrom depth s quote ∧ r = s ++ ')' :: rest := by
  fun_induction closedArgument? quote depth r generalizing s with
  | case1 => cases h
  | case2 q depth r ih =>
    obtain ⟨u, rfl, hu⟩ := Text.consPart_eq_some_iff.1 h
    obtain ⟨hcloses, rfl⟩ := ih hu
    exact ⟨⟨[], u, rfl, by simp, hcloses⟩, rfl⟩
  | case3 q depth c r hc ih =>
    obtain ⟨u, rfl, hu⟩ := Text.consPart_eq_some_iff.1 h
    obtain ⟨⟨v, t, rfl, hv, ht⟩, rfl⟩ := ih hu
    exact ⟨⟨c :: v, t, rfl, by simp [hv, Ne.symm hc], ht⟩, rfl⟩
  | case4 depth c r hq ih =>
    obtain ⟨u, rfl, hu⟩ := Text.consPart_eq_some_iff.1 h
    obtain ⟨⟨v, t, rfl, hv, ht⟩, rfl⟩ := ih hu
    refine ⟨?_, rfl⟩
    have hstring := ht.prepend (x := c :: (v ++ [c])) fun t ht => by
      simpa using Balanced.quoted hq hv ht
    simpa [ClosesFrom] using hstring
  | case5 depth r hq ih =>
    obtain ⟨u, rfl, hu⟩ := Text.consPart_eq_some_iff.1 h
    obtain ⟨⟨v, t, rfl, hv, ht⟩, rfl⟩ := ih hu
    refine ⟨?_, rfl⟩
    have hgroup := ht.prepend (x := '(' :: (v ++ [')'])) fun t ht => by
      simpa using Balanced.bracketed hv ht
    simpa [ClosesFrom] using hgroup
  | case6 r hq ho =>
    cases h
    exact ⟨.nil, rfl⟩
  | case7 r hq ho depth ih =>
    obtain ⟨u, rfl, hu⟩ := Text.consPart_eq_some_iff.1 h
    obtain ⟨hcloses, rfl⟩ := ih hu
    exact ⟨⟨[], u, rfl, .nil, hcloses⟩, rfl⟩
  | case8 depth c r hq ho hc ih =>
    obtain ⟨u, rfl, hu⟩ := Text.consPart_eq_some_iff.1 h
    obtain ⟨hcloses, rfl⟩ := ih hu
    refine ⟨?_, rfl⟩
    exact hcloses.prepend (x := [c]) fun t ht => .char (by simpa using hq) ho hc ht

/-- A bracket closes the one that was opened in front of a text if and only if the text is
balanced. -/
theorem closedArgument?_eq_some_iff {s rest : Text} :
    closedArgument? none 0 (s ++ ')' :: rest) = some (s, rest) ↔ Balanced s := by
  constructor
  · exact fun h => (closesFrom_of_closedArgument? h).1
  · intro h
    rw [closedArgument?_balanced h, closedArgument?_end, Text.foldr_consPart, List.append_nil]

end Import

instance (s : Text) : Decidable (Balanced s) :=
  decidable_of_iff (Import.closedArgument? none 0 (s ++ [')']) = some (s, []))
    Import.closedArgument?_eq_some_iff

/-- The text starts with a condition on a layer: the word, perhaps with a name in brackets, up to
white space or the end. -/
def StartsWithLayer (m : Text) : Prop :=
  ∃ r, afterWord? "layer".toList m = some r ∧ (Import.atBoundary r = true ∨
    ∃ name rest, r = '(' :: (name ++ ')' :: rest) ∧ ')' ∉ name ∧ Import.atBoundary rest = true)

/-- The text starts with a condition on features: the word with a balanced text in brackets. -/
def StartsWithSupports (m : Text) : Prop :=
  ∃ s rest, afterWord? "supports(".toList m = some (s ++ ')' :: rest) ∧ Balanced s

namespace Import

/-- The end of a word is no opening bracket. -/
theorem ne_bracket_of_atBoundary {r : Text} (h : atBoundary r = true) (s : Text) : r ≠ '(' :: s := by
  rintro rfl
  have hbracket : isBlank '(' = true := h
  exact absurd hbracket (by decide)

theorem takeLayer_anonymous {r : Text} (h : atBoundary r = true) :
    takeLayer ("layer".toList ++ r) = (some [], Text.trim isBlank r) := by
  have hword : afterWord? "layer".toList ("layer".toList ++ r) = some r := rfl
  unfold takeLayer
  rw [hword]
  dsimp only
  split
  · rename_i hnamed
    split at hnamed
    · rename_i s
      exact absurd rfl (ne_bracket_of_atBoundary h s)
    · cases hnamed
  · rw [if_pos h]

theorem takeLayer_named {n r : Text} (hn : Text.Trimmed isBlank n) (hclosed : ')' ∉ n)
    (h : atBoundary r = true) :
    takeLayer ("layer(".toList ++ (n ++ ')' :: r)) = (some n, Text.trim isBlank r) := by
  have hword : afterWord? "layer".toList ("layer(".toList ++ (n ++ ')' :: r)) =
      some ('(' :: (n ++ ')' :: r)) := rfl
  have hcut : Text.cutAt (· == ')') (n ++ ')' :: r) = some (n, r) :=
    Text.cutAt_append (by simp) fun x hx => beq_eq_false_iff_ne.2 fun he => hclosed (he ▸ hx)
  have htrim : Text.trim isBlank n = n := by simpa using hn.trim_eq Text.all_nil Text.all_nil
  unfold takeLayer
  rw [hword]
  simp only [hcut, h, if_true, htrim]

theorem takeLayer_none {m : Text} (h : ¬ StartsWithLayer m) : takeLayer m = (none, m) := by
  unfold takeLayer
  split
  · rfl
  · rename_i r hr
    have hend : (if atBoundary r then (some [], Text.trim isBlank r) else (none, m)) =
        ((none, m) : Option Text × Text) := if_neg fun hb => h ⟨r, hr, .inl hb⟩
    split
    · rename_i inner
      split
      · rename_i name rest hcut
        split
        · rename_i hb
          obtain ⟨c, hc, rfl, hname⟩ := Text.exists_of_cutAt hcut
          obtain rfl : c = ')' := by simpa using hc
          exact absurd ⟨_, hr, .inr ⟨name, rest, rfl, fun hm => by simpa using hname _ hm, hb⟩⟩ h
        · exact hend
      · exact hend
    · exact hend

theorem takeSupports_written {s r : Text} (hs : Text.Trimmed isBlank s) (hb : Balanced s) :
    takeSupports ("supports(".toList ++ (s ++ ')' :: r)) = (some s, Text.trim isBlank r) := by
  have hword : afterWord? "supports(".toList ("supports(".toList ++ (s ++ ')' :: r)) =
      some (s ++ ')' :: r) := rfl
  have htrim : Text.trim isBlank s = s := by simpa using hs.trim_eq Text.all_nil Text.all_nil
  unfold takeSupports
  rw [hword]
  simp only [closedArgument?_eq_some_iff.2 hb, htrim]

theorem takeSupports_none {m : Text} (h : ¬ StartsWithSupports m) : takeSupports m = (none, m) := by
  unfold takeSupports
  split
  · rfl
  · rename_i r hr
    split
    · rename_i s rest harg
      obtain ⟨hs, rfl⟩ := closesFrom_of_closedArgument? harg
      exact absurd ⟨s, rest, hr, hs⟩ h
    · rfl

end Import

/-- The conditions of an import as they may be written. A layer without a name has the empty one, and
there are no media in the empty list. Where a condition is not there, the media must not look like
it. -/
structure Conditions where
  layer : Option Text := none
  supports : Option Text := none
  media : Text := []
  name_closed : ∀ n ∈ layer, Text.Trimmed isBlank n ∧ ')' ∉ n
  supports_balanced : ∀ s ∈ supports, Text.Trimmed isBlank s ∧ Balanced s
  media_trimmed : Text.Trimmed isBlank media
  media_no_layer : layer = none → supports = none → ¬ StartsWithLayer media
  media_no_supports : supports = none → ¬ StartsWithSupports media

namespace Conditions

variable (k : Conditions)

/-- How the layer is written. -/
def layerWord : Option Text :=
  k.layer.map fun n => if n.isEmpty then "layer".toList else "layer(".toList ++ (n ++ [')'])

/-- How the condition on features is written. -/
def supportsWord : Option Text := k.supports.map fun s => "supports(".toList ++ (s ++ [')'])

/-- How the media are written. -/
def mediaWord : Option Text := if k.media.isEmpty then none else some k.media

/-- Words with a space in front of each. -/
def spread (ws : List Text) : Text := ws.flatMap (' ' :: ·)

/-- The conditions behind a target. -/
def text : Text :=
  spread (k.layerWord.toList ++ (k.supportsWord.toList ++ k.mediaWord.toList))

/-- A word is not empty and has no white space at its ends. -/
def IsWord (w : Text) : Prop := w ≠ [] ∧ Text.Trimmed isBlank w

theorem trimEnd_spread {w : Text} {ws : List Text} (hw : IsWord w) (h : ∀ v ∈ ws, IsWord v) :
    Text.trimEnd isBlank (w ++ spread ws) = w ++ spread ws := by
  induction ws generalizing w with
  | nil => simpa [spread] using hw.2.2
  | cons v ws ih =>
    have hrest := ih (h v (by simp)) fun x hx => h x (List.mem_cons_of_mem _ hx)
    have hne : v ++ spread ws ≠ [] := by simp [(h v (by simp)).1]
    have := Text.trimEnd_append hrest hne (w ++ [' '])
    simpa [spread] using this

/-- Words are read from the first one on. -/
theorem trim_spread {w : Text} {ws : List Text} (hw : IsWord w) (h : ∀ v ∈ ws, IsWord v) :
    Text.trim isBlank (spread (w :: ws)) = w ++ spread ws := by
  have htrimmed : Text.Trimmed isBlank (w ++ spread ws) :=
    ⟨hw.2.1.append hw.1 _, trimEnd_spread hw h⟩
  have hspace : Text.All isBlank [' '] := by simp [isBlank]
  simpa [spread] using htrimmed.trim_eq hspace Text.all_nil

theorem atBoundary_spread (ws : List Text) : Import.atBoundary (spread ws) = true := by
  cases ws <;> rfl

theorem isWord_append_bracket {w : Text} (hw : Text.Clear isBlank w) (hne : w ≠ []) (s : Text) :
    IsWord (w ++ (s ++ [')'])) := by
  refine ⟨by simp, hw.append hne _, ?_⟩
  have hbracket : Text.trimEnd isBlank [')'] = [')'] := by decide
  have := Text.trimEnd_append hbracket (by simp) (w ++ s)
  simpa using this

variable (k : Conditions)

theorem isWord_layerWord : ∀ w ∈ k.layerWord, IsWord w := by
  intro w hw
  obtain ⟨n, hn, rfl⟩ := Option.map_eq_some_iff.1 hw
  split
  · exact ⟨by decide, Text.clear_cons.2 rfl, by decide⟩
  · exact isWord_append_bracket (Text.clear_cons.2 rfl) (by decide) n

theorem isWord_supportsWord : ∀ w ∈ k.supportsWord, IsWord w := by
  intro w hw
  obtain ⟨s, hs, rfl⟩ := Option.map_eq_some_iff.1 hw
  exact isWord_append_bracket (Text.clear_cons.2 rfl) (by decide) s

theorem isWord_mediaWord : ∀ w ∈ k.mediaWord, IsWord w := by
  intro w hw
  unfold mediaWord at hw
  split at hw
  · cases hw
  · rename_i hne
    cases hw
    exact ⟨by simpa using hne, k.media_trimmed⟩

/-- The media are what is left when nothing else is. -/
theorem trim_mediaWord : Text.trim isBlank (spread k.mediaWord.toList) = k.media := by
  have hmedia : IsWord k.media ∨ k.media = [] := by
    by_cases hm : k.media = []
    · exact .inr hm
    · exact .inl ⟨hm, k.media_trimmed⟩
  unfold mediaWord
  rcases hmedia with hword | hm
  · rw [if_neg (by simpa using hword.1)]
    have hspread : Text.trim isBlank (spread [k.media]) = k.media ++ spread [] :=
      trim_spread hword (by simp)
    simpa [spread] using hspread
  · simp [hm, spread, Text.trim, Text.trimStart, Text.trimEnd]

theorem supportsWord_none (h : k.supports = none) : k.supportsWord = none := by
  rw [supportsWord, h, Option.map_none]

/-- A condition on features comes first in what follows the layer. -/
theorem trim_supportsWord {s : Text} (h : k.supports = some s) :
    Text.trim isBlank (spread (k.supportsWord.toList ++ k.mediaWord.toList)) =
      "supports(".toList ++ (s ++ ')' :: spread k.mediaWord.toList) := by
  have hword : k.supportsWord = some ("supports(".toList ++ (s ++ [')'])) := by
    rw [supportsWord, h, Option.map_some]
  have hmedia : ∀ w ∈ k.mediaWord.toList, IsWord w := fun w hw =>
    k.isWord_mediaWord w (Option.mem_toList.1 hw)
  rw [hword, Option.toList_some, List.singleton_append,
    trim_spread (k.isWord_supportsWord _ hword) hmedia, List.append_assoc, List.append_assoc,
    List.singleton_append]

/-- The condition on features is taken first from what follows the layer. -/
theorem takeSupports_eq :
    Import.takeSupports (Text.trim isBlank (spread (k.supportsWord.toList ++ k.mediaWord.toList))) =
      (k.supports, k.media) := by
  cases hs : k.supports with
  | none =>
    rw [k.supportsWord_none hs, Option.toList_none, List.nil_append, trim_mediaWord,
      Import.takeSupports_none (k.media_no_supports hs)]
  | some s =>
    obtain ⟨htrim, hb⟩ := k.supports_balanced s hs
    rw [k.trim_supportsWord hs, Import.takeSupports_written htrim hb, trim_mediaWord]

/-- What follows the target does not start with a layer if there is none. -/
theorem not_startsWithLayer (hl : k.layer = none) :
    ¬ StartsWithLayer
      (Text.trim isBlank (spread (k.supportsWord.toList ++ k.mediaWord.toList))) := by
  cases hs : k.supports with
  | none =>
    rw [k.supportsWord_none hs, Option.toList_none, List.nil_append, trim_mediaWord]
    exact k.media_no_layer hl hs
  | some s =>
    rw [k.trim_supportsWord hs]
    rintro ⟨r, hr, -⟩
    cases hr

/-- The layer is taken first from what follows the target. -/
theorem takeLayer_eq :
    Import.takeLayer (Text.trim isBlank k.text) =
      (k.layer,
        Text.trim isBlank (spread (k.supportsWord.toList ++ k.mediaWord.toList))) := by
  have hwords : ∀ w ∈ k.supportsWord.toList ++ k.mediaWord.toList, IsWord w := by
    intro w hw
    rcases List.mem_append.1 hw with hw | hw
    · exact k.isWord_supportsWord w (Option.mem_toList.1 hw)
    · exact k.isWord_mediaWord w (Option.mem_toList.1 hw)
  unfold text
  cases hl : k.layer with
  | none =>
    have hword : k.layerWord = none := by rw [layerWord, hl, Option.map_none]
    rw [hword, Option.toList_none, List.nil_append,
      Import.takeLayer_none (k.not_startsWithLayer hl)]
  | some n =>
    obtain ⟨htrim, hclosed⟩ := k.name_closed n hl
    have hword : k.layerWord =
        some (if n.isEmpty then "layer".toList else "layer(".toList ++ (n ++ [')'])) := by
      rw [layerWord, hl, Option.map_some]
    rw [hword, Option.toList_some, List.singleton_append,
      trim_spread (k.isWord_layerWord _ hword) hwords]
    by_cases hn : n = []
    · subst hn
      exact Import.takeLayer_anonymous (atBoundary_spread _)
    · rw [if_neg (by simpa using hn), List.append_assoc, List.append_assoc, List.singleton_append,
        Import.takeLayer_named htrim hclosed (atBoundary_spread _)]

end Conditions

/-- The quotes around a target. -/
inductive Quote
  | single
  | double
deriving DecidableEq, Repr

/-- The character of a quote. -/
def Quote.char : Quote → Char
  | .single => '\x27'
  | .double => '\x22'

theorem Quote.isQuote_char (q : Quote) : isQuote q.char = true := by
  cases q <;> rfl

/-- How a target is written: in quotes, or in `url()` with quotes or without. -/
inductive TargetSyntax
  | quoted (q : Quote)
  | inUrl (q : Option Quote)
deriving DecidableEq, Repr

namespace TargetSyntax

/-- The text in front of the target. -/
def front : TargetSyntax → Text
  | .quoted q => [q.char]
  | .inUrl none => "url(".toList
  | .inUrl (some q) => "url(".toList ++ [q.char]

/-- The text behind the target. -/
def back : TargetSyntax → Text
  | .quoted q => [q.char]
  | .inUrl none => [')']
  | .inUrl (some q) => [q.char, ')']

/-- The quote around the target, if there is one. -/
def quote : TargetSyntax → Option Char
  | .quoted q => some q.char
  | .inUrl q => q.map Quote.char

/-- Whether the target stands in `url()`. -/
def isUrl : TargetSyntax → Bool
  | .quoted _ => false
  | .inUrl _ => true

end TargetSyntax

/-- A target that may be written in any way: neither empty nor with white space, quotes or closing
brackets in it. -/
structure PlainTarget where
  text : Text
  ne_nil : text ≠ []
  plain : ∀ c ∈ text, isBlank c = false ∧ isQuote c = false ∧ c ≠ ')'

namespace PlainTarget

variable (u : PlainTarget)

theorem not_mem_of_isQuote {q : Char} (hq : isQuote q = true) : q ∉ u.text := fun hm => by
  rw [(u.plain q hm).2.1] at hq
  cases hq

theorem clear {p : Char → Bool} (hp : ∀ c ∈ u.text, p c = false) (s : Text) :
    Text.Clear p (u.text ++ s) := by
  refine Text.Clear.append (fun c hc => hp c ?_) u.ne_nil s
  exact List.mem_of_mem_head? hc

theorem trimmed : Text.Trimmed isBlank u.text := by
  have hkeep : ∀ s : Text, (∀ c ∈ s, isBlank c = false) → Text.trimEnd isBlank s = s := by
    intro s hs
    induction s with
    | nil => rfl
    | cons c s ih =>
      rw [Text.trimEnd_cons (.inl (hs c (by simp))), ih fun x hx => hs x (by simp [hx])]
  have hblank : ∀ c ∈ u.text, isBlank c = false := fun c hc => (u.plain c hc).1
  exact ⟨by simpa using u.clear hblank [], hkeep _ hblank⟩

end PlainTarget

namespace Import

section Url

variable {w u : Text}

/-- A text without closing brackets, and with no quote at its front, stands in `url()` as it is. -/
theorem targetForm_bareUrl (length : w.length = 4)
    (word : ∀ s, afterWord? "url(".toList (w ++ s) = some s)
    (quote : Text.Clear isQuote (Text.trimStart isBlank u)) (unclosed : ')' ∉ u) (rest : Text) :
    TargetForm (w ++ Text.leading isBlank u)
      (Text.trailing isBlank (Text.trimStart isBlank u) ++ ')' :: rest)
      ⟨Text.trim isBlank u, none, true, 4 + (Text.leading isBlank u).length, rest⟩ := by
  have hsplit : ∀ x : Text, Text.trim isBlank u ++
      (Text.trailing isBlank (Text.trimStart isBlank u) ++ x) = Text.trimStart isBlank u ++ x :=
    fun x => by rw [← List.append_assoc, Text.trim, Text.trimEnd_append_trailing]
  have hstart : Text.trimStart isBlank u <:+ u := List.dropWhile_suffix isBlank
  refine .bareUrl length word (Text.all_leading isBlank u) ?_ (Text.all_trailing isBlank _)
    (Text.trimEnd_trimEnd isBlank _) (fun hm => ?_) fun q r hs hq => ?_
  · rw [hsplit]
    exact Text.clear_append (Text.clear_trimStart isBlank u) (Text.clear_cons.2 (by decide))
  · exact unclosed (hstart.subset ((Text.trimEnd_isPrefix isBlank _).subset hm))
  · have hfirst : Text.Clear isQuote (Text.trimStart isBlank u ++ ')' :: rest) :=
      Text.clear_append quote (Text.clear_cons.2 (by decide))
    rw [hsplit] at hs
    rw [hs, Text.clear_cons, hq] at hfirst
    cases hfirst

theorem rawTarget?_bareUrl (length : w.length = 4)
    (word : ∀ s, afterWord? "url(".toList (w ++ s) = some s)
    (quote : Text.Clear isQuote (Text.trimStart isBlank u)) (unclosed : ')' ∉ u) (rest : Text) :
    rawTarget? (w ++ (u ++ ')' :: rest)) =
      some ⟨Text.trim isBlank u, none, true, 4 + (Text.leading isBlank u).length, rest⟩ := by
  have hread := rawTarget?_of_form (targetForm_bareUrl length word quote unclosed rest)
  have hu : Text.leading isBlank u ++ (Text.trim isBlank u ++
      (Text.trailing isBlank (Text.trimStart isBlank u) ++ ')' :: rest)) = u ++ ')' :: rest := by
    rw [← List.append_assoc (Text.trim isBlank u), Text.trim, Text.trimEnd_append_trailing,
      ← List.append_assoc, Text.leading_append_trimStart]
  rwa [List.append_assoc, hu] at hread

/-- A text stands in `url()` between two quotes that it does not hold. -/
theorem targetForm_quotedUrl {lead gap : Text} {q : Char} (length : w.length = 4)
    (word : ∀ s, afterWord? "url(".toList (w ++ s) = some s) (blank : Text.All isBlank lead)
    (quote : isQuote q = true) (inner : q ∉ u) (gaps : Text.All isBlank gap) (rest : Text) :
    TargetForm (w ++ (lead ++ [q])) (q :: (gap ++ ')' :: rest))
      ⟨u, some q, true, 4 + lead.length + 1, rest⟩ := by
  have hclosing : afterClosing? (gap ++ ')' :: rest) = some rest := by
    rw [afterClosing?, Text.trimStart_of_all gaps,
      Text.trimStart_of_clear (Text.clear_cons.2 (by decide))]
    rfl
  exact .quotedUrl length word blank quote
    (quotedArgument?_append quote (quotedArgument?_eq_none inner) hclosing) hclosing

end Url

/-- However a target is written, it stands in one of the forms that the reader knows. -/
theorem targetForm_of_syntax (x : TargetSyntax) (u : PlainTarget) (rest : Text) :
    TargetForm x.front (x.back ++ rest) ⟨u.text, x.quote, x.isUrl, x.front.length, rest⟩ := by
  have hurl : ∀ s, afterWord? "url(".toList ("url(".toList ++ s) = some s := fun s => rfl
  match x with
  | .quoted q => exact .quoted q.isQuote_char (u.not_mem_of_isQuote q.isQuote_char)
  | .inUrl none =>
    have hclear : Text.Clear isBlank u.text := u.trimmed.1
    have hquote : Text.Clear isQuote u.text := fun c hc =>
      (u.plain c (List.mem_of_mem_head? hc)).2.1
    have hform := targetForm_bareUrl (w := "url(".toList) (u := u.text) rfl hurl
      (by rwa [Text.trimStart_of_clear hclear]) (fun hm => (u.plain _ hm).2.2 rfl) rest
    have htrailing : Text.trailing isBlank u.text = [] := by
      simpa using Text.trailing_append_of_all u.trimmed.2 Text.all_nil
    rw [Text.trim, Text.trimStart_of_clear hclear, Text.leading_of_clear hclear, u.trimmed.2,
      htrailing] at hform
    exact hform
  | .inUrl (some q) =>
    exact targetForm_quotedUrl rfl hurl Text.all_nil q.isQuote_char
      (u.not_mem_of_isQuote q.isQuote_char) Text.all_nil rest

end Import

/-- The import that is written as a target with conditions behind it. -/
def Conditions.toImport (k : Conditions) (x : TargetSyntax) (u : PlainTarget)
    (origin : Option Text) : Import where
  target := u.text
  quote := x.quote
  inUrl := x.isUrl
  media := k.media
  layer := k.layer
  supports := k.supports
  origin := origin
  start := x.front.length
  stop := x.front.length + u.text.length

theorem Conditions.decode?_written (k : Conditions) (x : TargetSyntax) (u : PlainTarget)
    (origin : Option Text) :
    Import.decode? (x.front ++ (u.text ++ (x.back ++ k.text))) origin =
      some (k.toImport x u origin) := by
  have htarget : Import.rawTarget? (x.front ++ (u.text ++ (x.back ++ k.text))) =
      some ⟨u.text, x.quote, x.isUrl, x.front.length, k.text⟩ :=
    Import.rawTarget?_of_form (Import.targetForm_of_syntax x u k.text)
  have htrim : Text.trim isBlank u.text = u.text := by
    simpa using u.trimmed.trim_eq Text.all_nil Text.all_nil
  unfold Import.decode?
  rw [htarget]
  simp only [k.takeLayer_eq, k.takeSupports_eq, htrim, toImport]

/-- The nodes with the first one on a line of its own if nothing stands in front of it. -/
def Node.onOwnLine : List Node → List Node
  | [] => []
  | n :: ns => (if n.before.isEmpty then n.withBefore ['\n'] else n) :: ns

/-- The nodes in blocks with the given heads, the outermost first. Each block has the next one as its
only child, and the innermost has the nodes. -/
def Node.nest : List AtHead → List Node → List Node
  | [], ns => ns
  | h :: hs, ns => [.block [] (.atRule h) (onOwnLine (nest hs ns)) ['\n']]

theorem Node.wrapIn_eq (h : AtHead) (ns : List Node) :
    wrapIn h ns = .block [] (.atRule h) (onOwnLine ns) ['\n'] := by
  cases ns with
  | nil => rfl
  | cons n ns =>
    by_cases hn : n.before.isEmpty
    · simp [wrapIn, onOwnLine, leadWith, hn]
    · simp [wrapIn, onOwnLine, hn]

theorem Node.nest_eq_foldr (hs : List AtHead) (ns : List Node) :
    nest hs ns = hs.foldr (fun h ns => [wrapIn h ns]) ns := by
  induction hs with
  | nil => rfl
  | cons h hs ih => rw [nest, List.foldr_cons, ← ih, wrapIn_eq]

/-- The heads of the blocks for the conditions, the outermost first: the media, the features, which
are put in brackets unless they start with one, and the layer. -/
def Conditions.heads (k : Conditions) : List AtHead :=
  (if k.media.isEmpty then [] else [.ofCondition "media" k.media]) ++
    (k.supports.map fun s => AtHead.ofCondition "supports" (Import.bracketed s)).toList ++
    (k.layer.map fun n => AtHead.ofCondition "layer" n).toList

theorem Conditions.wrap_toImport (k : Conditions) (x : TargetSyntax) (u : PlainTarget)
    (origin : Option Text) (ns : List Node) :
    (k.toImport x u origin).wrap ns = Node.nest k.heads ns := by
  have htrim : Text.trim isBlank k.media = k.media := by
    simpa using k.media_trimmed.trim_eq Text.all_nil Text.all_nil
  have hheads : (k.toImport x u origin).wrappers = k.heads.reverse := by
    simp only [Import.wrappers, toImport, htrim, heads, List.reverse_append]
    cases k.layer <;> cases k.supports <;> by_cases hm : k.media.isEmpty <;> simp [hm]
  rw [Import.wrap, hheads, List.foldl_reverse, Node.nest_eq_foldr]

/-- Whatever the target and its form, and whatever conditions stand behind it, an import is read as it
was written, and nodes in its place are nested in a block for each of its conditions. -/
theorem written_import_survives (k : Conditions) (x : TargetSyntax) (u : PlainTarget) {h : AtHead}
    (hname : h.name.lower = "import".toList)
    (hparams : h.params = x.front ++ (u.text ++ (x.back ++ k.text))) (before : Text)
    (semicolon : Bool) (origin : Option Text) :
    ∃ d : Import, Import.ofNode? (.statement before h semicolon) origin = some d ∧
      d.target = u.text ∧ d.quote = x.quote ∧ d.inUrl = x.isUrl ∧ d.layer = k.layer ∧
      d.supports = k.supports ∧ d.media = k.media ∧ d.origin = origin ∧
      (h.params.take d.stop).drop d.start = u.text ∧
      ∀ ns, d.wrap ns = Node.nest k.heads ns := by
  refine ⟨k.toImport x u origin, ?_, rfl, rfl, rfl, rfl, rfl, rfl, rfl, ?_,
    k.wrap_toImport x u origin⟩
  · rw [Import.ofNode?, if_pos hname, hparams, k.decode?_written]
  · simp [Conditions.toImport, hparams, List.take_append]

/-- A layer without a name in front of features with a bracket in a string, and media that start with
a bracket and hold the word for a layer. -/
theorem written_import_survives_nested :
    let params := ("url(\"a.css\") layer supports(selector(\"(\") or (x: y))" ++
      " (width: 1px), layer").toList
    let features := "(selector(\"(\") or (x: y))".toList
    ∃ d, Import.ofNode? (.statement [] ⟨"Import".toList, params, [' '], []⟩ true) none = some d ∧
      d.target = "a.css".toList ∧ d.layer = some [] ∧ d.media = "(width: 1px), layer".toList ∧
      d.wrap [.comment [] ['x']] =
        [.block [] (.atRule ⟨"media".toList, "(width: 1px), layer".toList, [' '], [' ']⟩)
          [.block ['\n'] (.atRule ⟨"supports".toList, features, [' '], [' ']⟩)
            [.block ['\n'] (.atRule ⟨"layer".toList, [], [], [' ']⟩)
              [.comment ['\n'] ['x']] ['\n']] ['\n']] ['\n']] := by
  intro params features
  let k : Conditions :=
    { layer := some []
      supports := some "selector(\"(\") or (x: y)".toList
      media := "(width: 1px), layer".toList
      name_closed := by simp [Text.Trimmed, Text.trimEnd]
      supports_balanced := by
        rintro s ⟨⟩
        exact ⟨⟨Text.clear_cons.2 rfl, by decide +kernel⟩, by decide +kernel⟩
      media_trimmed := ⟨Text.clear_cons.2 rfl, by decide +kernel⟩
      media_no_layer := fun h => nomatch h
      media_no_supports := fun h => nomatch h }
  have hplain : ("a.css".toList.all fun c => !isBlank c && (!isQuote c && c != ')')) = true := rfl
  let u : PlainTarget :=
    ⟨"a.css".toList, by decide, fun c hc => by simpa using List.all_eq_true.1 hplain c hc⟩
  have hname : Text.lower "Import".toList = "import".toList := rfl
  have hparams : params = (TargetSyntax.inUrl (some .double)).front ++
      (u.text ++ ((TargetSyntax.inUrl (some .double)).back ++ k.text)) := rfl
  obtain ⟨d, hd, htarget, -, -, hlayer, -, hmedia, -, -, hwrap⟩ :=
    written_import_survives k (.inUrl (some .double)) u
      (h := ⟨"Import".toList, params, [' '], []⟩) hname hparams [] true none
  exact ⟨d, hd, htarget, hlayer, hmedia, (hwrap _).trans rfl⟩

end StyleSplice
