import StyleSplice.Proofs.Import.LastTarget
import StyleSplice.Proofs.Import.Legible
import StyleSplice.Proofs.Text.Case

/-!
# Imports are taken apart between tokens

The parameters of an import are cut by a reader of their own. If they are legible to it, then it cuts
them where the reader of sheets sees a token end: the target ends with its string or its `url()`, and
each condition is a whole text, so that the head of a block for it is read back.
-/

namespace StyleSplice

variable {c m r s t u v : Text}

theorem isLetter_bracket {c : Char} (h : isLetter '(' c = true) : c = '(' := eq_of_isLetter rfl h

/-- A word with a bracket behind it. -/
theorem afterWord?_append_bracket {w : Text} :
    afterWord? (w ++ ['(']) s = some r ↔ afterWord? w s = some ('(' :: r) := by
  induction w generalizing s with
  | nil =>
    cases s with
    | nil => simp [afterWord?]
    | cons c s =>
      rw [List.nil_append, afterWord?, afterWord?, afterWord?]
      constructor
      · intro h
        split at h
        · rename_i hc
          cases h
          rw [isLetter_bracket hc]
        · cases h
      · rintro ⟨⟩
        rfl
  | cons k w ih =>
    cases s with
    | nil => simp [afterWord?]
    | cons c s =>
      rw [List.cons_append, afterWord?, afterWord?]
      split
      · exact ih
      · simp

theorem exists_mild_of_afterWord? {w : Text} (hw : ∀ k ∈ w, isMild k = true)
    (h : afterWord? w s = some r) : ∃ v, s = v ++ r ∧ ∀ c ∈ v, isMild c = true := by
  induction w generalizing s with
  | nil =>
    cases h
    exact ⟨[], rfl, by simp⟩
  | cons k w ih =>
    cases s with
    | nil => cases h
    | cons c s =>
      unfold afterWord? at h
      split at h
      · rename_i hc
        obtain ⟨v, rfl, hv⟩ := ih (fun x hx => hw x (List.mem_cons_of_mem _ hx)) h
        refine ⟨c :: v, rfl, fun x hx => ?_⟩
        rcases List.mem_cons.1 hx with rfl | hx
        · exact isMild_of_isLetter (hw k List.mem_cons_self) hc
        · exact hv x hx
      · cases h

/-- The word at the front of the text opens a bracket, and this is what is in it. -/
def HasArgument (word s u : Text) : Prop :=
  ∃ t, afterWord? (word ++ ['(']) s = some (u ++ ')' :: t) ∧ Legible true u

/-- In a legible text every word that opens a bracket has an argument. -/
theorem Legible.exists_argument {inner : Bool} {word : Text} (hw : ∀ k ∈ word, isMild k = true)
    (h : Legible inner s) (hr : afterWord? word s = some ('(' :: r)) :
    ∃ u t a, r = u ++ ')' :: t ∧ s = a ++ t ∧ HasArgument word s u ∧ Legible inner a ∧
      a.head? ≠ some '*' ∧ Legible inner t := by
  obtain ⟨v, hv, hmild⟩ := exists_mild_of_afterWord? hw hr
  rw [hv] at h
  obtain ⟨hfront, hbracket⟩ := Made.of_append hmild h
  obtain ⟨u, t, rfl, hu, ht⟩ := Legible.of_bracket hbracket
  refine ⟨u, t, v ++ '(' :: (u ++ [')']), rfl, by simp [hv],
    ⟨t, afterWord?_append_bracket.2 hr, hu⟩, hfront.append (Legible.group hu .nil) (by simp), ?_, ht⟩
  exact head?_append_ne (by simp) (head?_ne_of_isMild hmild)

/-- What stands behind a text does not change its argument. -/
theorem HasArgument.append {word : Text} (h : HasArgument word s u) (x : Text) :
    HasArgument word (s ++ x) u := by
  obtain ⟨t, ht, hu⟩ := h
  obtain ⟨v, rfl, -, hword⟩ := exists_of_afterWord? ht
  refine ⟨t ++ x, ?_, hu⟩
  rw [List.append_assoc, hword, List.append_assoc, List.cons_append]

/-- What `url()` may hold: a string without its quote in it, or a text that starts with no quote and
has no closing bracket. -/
def UrlArgument (u : Text) : Prop :=
  (∃ lead q body gap, u = lead ++ q :: (body ++ q :: gap) ∧ Text.All isBlank lead ∧
    isQuote q = true ∧ q ∉ body ∧ Text.All isBlank gap) ∨
  Text.Clear isQuote (Text.trimStart isBlank u) ∧ ')' ∉ u

/-- Parameters of an import that are cut between tokens. Behind whole tokens, the name of a layer holds
no closing bracket, and no stop characters stand where the head of a block for a condition would not
shield them. -/
structure LegibleParams (params : Text) : Prop where
  tokens : Legible false params
  url : ∀ u, HasArgument "url".toList params u → UrlArgument u
  layer : ∀ a s, params = a ++ s → Legible false a → ∀ u, HasArgument "layer".toList s u →
    Legible false u ∧ ')' ∉ u
  supports : ∀ a s, params = a ++ s → Legible false a → ∀ u, HasArgument "supports".toList s u →
    (Text.trimStart isBlank u).head? = some '(' → Legible false u

/-- The text stands in the parameters behind whole tokens. -/
def Behind (params s : Text) : Prop := ∃ a b, params = a ++ (s ++ b) ∧ Legible false a

namespace Behind

variable {params : Text}

theorem rest (h : Behind params (t ++ s)) (ht : Legible false t) (hstar : t.head? ≠ some '*') :
    Behind params s := by
  obtain ⟨a, b, rfl, ha⟩ := h
  exact ⟨a ++ t, b, by simp, ha.append ht hstar⟩

theorem trim (h : Behind params s) (hs : Legible false s) : Behind params (Text.trim isBlank s) := by
  have hblank : ∀ c ∈ Text.leading isBlank s, isMild c = true := fun c hc =>
    isMild_of_isBlank (Text.all_leading isBlank s c hc)
  have hsplit := Text.leading_append_trimStart isBlank s
  rw [← hsplit] at h hs
  obtain ⟨a, b, hparams, ha⟩ := h.rest (Made.of_append hblank hs).1 (head?_ne_of_isMild hblank)
  refine ⟨a, Text.trailing isBlank (Text.trimStart isBlank s) ++ b, ?_, ha⟩
  rw [hparams, ← List.append_assoc (Text.trim isBlank s), Text.trim, Text.trimEnd_append_trailing]

/-- What is said of every argument behind whole tokens is said of those that are found there. -/
theorem argument {word : Text} {P : Text → Prop}
    (h : ∀ a s, params = a ++ s → Legible false a → ∀ u, HasArgument word s u → P u)
    (hm : Behind params m) (hu : HasArgument word m u) : P u := by
  obtain ⟨a, b, hparams, ha⟩ := hm
  exact h a (m ++ b) hparams ha u (hu.append b)

end Behind

namespace Import

variable {d : Import} {params : Text}

/-- The target ends with its token: in front of the quote that closes the string, or in front of the
bracket that closes `url()`, with nothing but its quote and white space in between. -/
inductive EndsWithToken (d : Import) : Text → Prop
  | string {q : Char} {body rest : Text} (quote : isQuote q = true) (closed : StringBody q body)
    (stop : d.stop = 1 + body.length) : EndsWithToken d (q :: (body ++ q :: rest))
  | url {w arg gap rest : Text} (word : afterWord? "url(".toList w = some [])
    (whole : Whole true (arg ++ (d.quote.toList ++ gap))) (gaps : Text.All isBlank gap)
    (stop : d.stop = w.length + arg.length) :
    EndsWithToken d (w ++ (arg ++ (d.quote.toList ++ (gap ++ ')' :: rest))))

theorem takeLayer_cases (m : Text) :
    takeLayer m = (none, m) ∨
    (∃ r, afterWord? "layer".toList m = some r ∧ takeLayer m = (some [], Text.trim isBlank r)) ∨
    ∃ name rest, afterWord? "layer".toList m = some ('(' :: (name ++ ')' :: rest)) ∧ ')' ∉ name ∧
      takeLayer m = (some (Text.trim isBlank name), Text.trim isBlank rest) := by
  unfold takeLayer
  split
  · exact .inl rfl
  · rename_i r hr
    dsimp only
    split
    · rename_i name rest hnamed
      split at hnamed
      · split at hnamed
        · rename_i hcut
          split at hnamed
          · cases hnamed
            obtain ⟨c, hc, rfl, hname⟩ := Text.exists_of_cutAt hcut
            obtain rfl : c = ')' := by simpa using hc
            exact .inr (.inr ⟨_, _, hr, fun hm => by simpa using hname _ hm, rfl⟩)
          · cases hnamed
        · cases hnamed
      · cases hnamed
    · split
      · exact .inr (.inl ⟨r, hr, rfl⟩)
      · exact .inl rfl

theorem takeSupports_cases (m : Text) :
    takeSupports m = (none, m) ∨
    ∃ s rest, afterWord? "supports(".toList m = some (s ++ ')' :: rest) ∧ Balanced s ∧
      takeSupports m = (some (Text.trim isBlank s), Text.trim isBlank rest) := by
  unfold takeSupports
  split
  · exact .inl rfl
  · rename_i r hr
    split
    · rename_i s rest harg
      obtain ⟨hs, rfl⟩ := closesFrom_of_closedArgument? harg
      exact .inr ⟨s, rest, hr, hs, rfl⟩
    · exact .inl rfl

theorem eq_of_balanced (hu : Balanced u) (hv : Balanced v) (h : u ++ ')' :: s = v ++ ')' :: t) :
    u = v ∧ s = t := by
  have heq : closedArgument? none 0 (u ++ ')' :: s) = some (u, s) :=
    closedArgument?_eq_some_iff.2 hu
  rw [h, closedArgument?_eq_some_iff.2 hv] at heq
  cases heq
  exact ⟨rfl, rfl⟩

/-- A word has one argument only. -/
theorem eq_of_hasArgument {word : Text} (hu : HasArgument word s u) (hv : HasArgument word s v) :
    u = v := by
  obtain ⟨t, ht, hu⟩ := hu
  obtain ⟨t', ht', hv⟩ := hv
  rw [ht, Option.some.injEq] at ht'
  exact (eq_of_balanced hu.balanced hv.balanced ht').1

/-- Where a word opens a bracket at one place only, its argument is the one there. -/
theorem eq_of_only_argument {word : Text} {n : Nat} (hn : (List.range (params.length + 1)).filter
      (fun k => (afterWord? (word ++ ['(']) (params.drop k)).isSome) = [n])
    (hv : HasArgument word (params.drop n) v) (hs : s <:+ params) (hu : HasArgument word s u) :
    u = v := by
  rw [List.suffix_iff_eq_drop] at hs
  have hmem : params.length - s.length ∈ (List.range (params.length + 1)).filter
      fun k => (afterWord? (word ++ ['(']) (params.drop k)).isSome := by
    obtain ⟨t, ht, -⟩ := hu
    rw [List.mem_filter, List.mem_range, ← hs, ht]
    exact ⟨Nat.lt_succ_of_le (Nat.sub_le ..), rfl⟩
  rw [hn, List.mem_singleton] at hmem
  rw [hs, hmem] at hu
  exact eq_of_hasArgument hu hv

/-- A layer is taken off a legible text between tokens. -/
theorem takeLayer_legible (hm : Legible false m) (hbehind : Behind params m)
    (harg : ∀ u, HasArgument "layer".toList m u → Legible false u ∧ ')' ∉ u) :
    (∀ n ∈ (takeLayer m).1, Legible false n ∧ Text.Trimmed isBlank n) ∧
      Legible false (takeLayer m).2 ∧ Behind params (takeLayer m).2 := by
  have hword : ∀ k ∈ "layer".toList, isMild k = true := by simp [isMild, isSingle, isQuote]
  rcases takeLayer_cases m with he | ⟨r, hr, he⟩ | ⟨name, rest, hr, hname, he⟩
  · rw [he]
    exact ⟨by simp, hm, hbehind⟩
  · rw [he]
    obtain ⟨v, rfl, hv⟩ := exists_mild_of_afterWord? hword hr
    obtain ⟨hfront, hrest⟩ := Made.of_append hv hm
    refine ⟨?_, Legible.trim hrest,
      (hbehind.rest hfront (head?_ne_of_isMild hv)).trim hrest⟩
    rintro n ⟨⟩
    exact ⟨.nil, by decide⟩
  · rw [he]
    obtain ⟨u, t, a, hsplit, hcut, hu, hfront, hstar, hrest⟩ := hm.exists_argument hword hr
    -- both readers stop at the same bracket, as the name holds none
    obtain ⟨hlegible, hclosed⟩ := harg u hu
    obtain ⟨rfl, rfl⟩ := Text.eq_of_notMem hname hclosed hsplit
    rw [hcut] at hbehind
    refine ⟨?_, hrest.trim, (hbehind.rest hfront hstar).trim hrest⟩
    rintro n ⟨⟩
    exact ⟨hlegible.trim, Text.trimmed_trim isBlank name⟩

/-- A condition on features is taken off a legible text between tokens. -/
theorem takeSupports_legible (hm : Legible false m) :
    (∀ c ∈ (takeSupports m).1, ∃ u, c = Text.trim isBlank u ∧ HasArgument "supports".toList m u) ∧
      Legible false (takeSupports m).2 := by
  have hword : ∀ k ∈ "supports".toList, isMild k = true := by simp [isMild, isSingle, isQuote]
  rcases takeSupports_cases m with he | ⟨s, rest, hr, hs, he⟩
  · rw [he]
    exact ⟨by simp, hm⟩
  · rw [he]
    have hr' : afterWord? "supports".toList m = some ('(' :: (s ++ ')' :: rest)) :=
      afterWord?_append_bracket.1 hr
    obtain ⟨u, t, a, hsplit, -, hu, -, -, ht⟩ := hm.exists_argument hword hr'
    have hbalanced : Balanced u := by
      obtain ⟨-, -, hlegible⟩ := hu
      exact hlegible.balanced
    obtain ⟨rfl, rfl⟩ := eq_of_balanced hs hbalanced hsplit
    refine ⟨?_, ht.trim⟩
    rintro c ⟨⟩
    exact ⟨s, rfl, hu⟩

theorem endsWithToken_of_url {w arg gap rest : Text} (hword : afterWord? "url(".toList w = some [])
    (hwhole : Whole true u) (hu : u = arg ++ (d.quote.toList ++ gap)) (hgap : Text.All isBlank gap)
    (hstop : d.stop = w.length + arg.length) : d.EndsWithToken (w ++ (u ++ ')' :: rest)) := by
  subst hu
  have hend : d.EndsWithToken (w ++ (arg ++ (d.quote.toList ++ (gap ++ ')' :: rest)))) :=
    .url hword hwhole hgap hstop
  simpa using hend

theorem endsWithToken_of_string {q : Char} {r raw rest : Text} (hp : Legible false (q :: r))
    (hq : isQuote q = true) (hcut : Text.cutAt (· == q) r = some (raw, rest))
    (hstop : d.stop = 1 + raw.length) :
    d.EndsWithToken (q :: r) ∧ Legible false rest ∧ Behind (q :: r) rest := by
  obtain ⟨body, rest', rfl, hbody, hmem, hrest⟩ := hp.of_quote hq
  have hcut' : Text.cutAt (· == q) (body ++ q :: rest') = some (body, rest') :=
    Text.cutAt_append (by simp) fun x hx => beq_eq_false_iff_ne.2 fun he => hmem (he ▸ hx)
  rw [hcut'] at hcut
  cases hcut
  exact ⟨.string hq hbody hstop, hrest, q :: (raw ++ [q]), [], by simp, .string hq hbody hmem .nil⟩

/-- A target is taken off legible parameters where its token ends. -/
theorem endsWithToken_of_rawTarget? {t : RawTarget} (hp : Legible false params)
    (hurl : ∀ u, HasArgument "url".toList params u → UrlArgument u)
    (ht : rawTarget? params = some t) (hquote : d.quote = t.quote)
    (hstop : d.stop = t.start + t.raw.length) :
    d.EndsWithToken params ∧ Legible false t.rest ∧ Behind params t.rest := by
  have hword : ∀ k ∈ "url".toList, isMild k = true := by simp [isMild, isSingle, isQuote]
  cases hw : afterWord? "url(".toList params with
  | none =>
    unfold rawTarget? at ht
    rw [hw] at ht
    dsimp only at ht
    split at ht
    · split at ht
      · rename_i hq
        obtain ⟨⟨raw, rest⟩, hcut, rfl⟩ := Option.map_eq_some_iff.1 ht
        exact endsWithToken_of_string hp hq hcut hstop
      · cases ht
    · cases ht
  | some inner =>
    obtain ⟨w, rfl, hlength, hall⟩ := exists_of_afterWord? hw
    obtain ⟨u, rest, a, rfl, hcut, hu, hfront, -, hrest⟩ :=
      hp.exists_argument hword (afterWord?_append_bracket.1 hw)
    have hwhole : Whole true u := by
      obtain ⟨-, -, hlegible⟩ := hu
      exact hlegible.whole
    have hword' : afterWord? "url(".toList w = some [] := by simpa using hall []
    have hbehind : Behind (w ++ (u ++ ')' :: rest)) rest := ⟨a, [], by simp [hcut], hfront⟩
    rcases hurl u hu with ⟨lead, q, body, gap, rfl, hlead, hq, hbody, hgap⟩ | ⟨hclear, hclosed⟩
    · have hread := rawTarget?_of_form (targetForm_quotedUrl hlength hall hlead hq hbody hgap
        rest)
      simp only [List.append_assoc, List.cons_append, List.nil_append] at hread ht
      rw [ht] at hread
      cases hread
      have hu' : lead ++ q :: (body ++ q :: gap) = lead ++ q :: body ++ (d.quote.toList ++ gap) := by
        simp [hquote]
      have hstop' : d.stop = w.length + (lead ++ q :: body).length := by
        have hw' : w.length = 4 := hlength
        have hstop : d.stop = 4 + lead.length + 1 + body.length := hstop
        simp only [List.length_append, List.length_cons]
        omega
      exact ⟨endsWithToken_of_url hword' hwhole hu' hgap hstop', hrest, hbehind⟩
    · rw [rawTarget?_bareUrl hlength hall hclear hclosed rest] at ht
      cases ht
      have hu' : u = Text.leading isBlank u ++ Text.trim isBlank u ++
          (d.quote.toList ++ Text.trailing isBlank (Text.trimStart isBlank u)) := by
        rw [hquote, Option.toList_none, List.nil_append, List.append_assoc, Text.trim,
          Text.trimEnd_append_trailing, Text.leading_append_trimStart]
      have hstop' : d.stop =
          w.length + (Text.leading isBlank u ++ Text.trim isBlank u).length := by
        rw [hstop, hlength, List.length_append, ← Nat.add_assoc]
        rfl
      exact ⟨endsWithToken_of_url hword' hwhole hu' (Text.all_trailing isBlank _) hstop', hrest,
        hbehind⟩

/-- The head of a block for a condition is read back if the condition is whole and white space stands
at neither end of it. -/
theorem fits_ofCondition {name : String} (hname : atName? name.toList = some (name.toList, []))
    (hc : Whole false c) (htrim : Text.Trimmed isGap c) (k : Text) :
    (Item.opening [] (.atRule (.ofCondition name c))).Fits k := by
  have hgap : Text.All isGap [' '] := by simp [isGap]
  have hclosed : Closed (c ++ [' ']) := hc.closes (by simp) (by decide : Closed [' ']) (by decide)
  have hraw : Closed (AtHead.ofCondition name c).raw ∧
      Text.Clear isNameMore (AtHead.ofCondition name c).raw := by
    rw [AtHead.raw, AtHead.ofCondition]
    dsimp only
    split
    · rename_i hnil
      rw [List.isEmpty_iff] at hnil
      subst hnil
      exact ⟨hclosed, Text.clear_cons.2 rfl⟩
    · refine ⟨?_, Text.clear_cons.2 rfl⟩
      exact Closes.char rfl (by decide) (by decide) (by decide) (by simp [isStop]) (by simp) hclosed
  have hregular : (AtHead.ofCondition name c).Regular := by
    refine ⟨hname, hraw.2, ?_, htrim, hgap, fun hnil => ?_⟩
    · rw [AtHead.ofCondition]
      dsimp only
      split
      · exact Text.all_nil
      · exact hgap
    · have hc' : c = [] := hnil
      rw [AtHead.ofCondition, hc']
      rfl
  exact Item.fits_of_regular ⟨Text.all_nil, hregular⟩ rfl (Item.endsIn_of_closed rfl hraw.1)

/-- In brackets of its own a condition on features is whole whatever stop characters it holds. -/
theorem bracketed_legible (hu : Legible true u)
    (hstop : (Text.trimStart isBlank u).head? = some '(' → Legible false u) :
    Legible false (bracketed (Text.trim isBlank u)) ∧
      Text.Trimmed isBlank (bracketed (Text.trim isBlank u)) := by
  unfold bracketed
  split
  · rename_i r hr
    have hstart : Text.trimStart isBlank u =
        '(' :: (r ++ Text.trailing isBlank (Text.trimStart isBlank u)) := by
      rw [← List.cons_append, ← hr, Text.trim, Text.trimEnd_append_trailing]
    have hlegible : Legible false u := hstop (by rw [hstart]; rfl)
    exact ⟨hlegible.trim, Text.trimmed_trim isBlank u⟩
  · refine ⟨.group hu.trim .nil, Text.clear_cons.2 rfl, ?_⟩
    exact Text.trimEnd_append_cons rfl ('(' :: Text.trim isBlank u) []

/-- An import with legible parameters is cut between tokens: its target ends where its string or its
`url()` does, its conditions are whole, and the head of each block for them is read back in front of
any text. -/
theorem decoded_between_tokens {before : Text} {h : AtHead} {semicolon : Bool} {origin : Option Text}
    (hd : ofNode? (.statement before h semicolon) origin = some d) (hp : LegibleParams h.params) :
    d.EndsWithToken h.params ∧ Whole false d.media ∧ (∀ n ∈ d.layer, Whole false n) ∧
      (∀ c ∈ d.supports, Whole true c) ∧
      ∀ w ∈ d.wrappers, ∀ k, (Item.opening [] (.atRule w)).Fits k := by
  obtain ⟨_, _, _, ⟨⟩, -, hdecode⟩ := ofNode?_eq_some_iff.1 hd
  obtain ⟨t, ht⟩ := exists_madeOf hdecode
  obtain ⟨hend, hrest, hbehind⟩ :=
    endsWithToken_of_rawTarget? hp.tokens hp.url ht.read ht.quote ht.stop
  obtain ⟨rest, hl, hs⟩ := ht.conditions
  -- the layer and the features are looked for in what is left, which stands behind whole tokens
  have hlayer := takeLayer_legible hrest.trim (hbehind.trim hrest) fun u hu =>
    Behind.argument hp.layer (hbehind.trim hrest) hu
  rw [hl] at hlayer
  obtain ⟨hname, hlegible, hbehind'⟩ := hlayer
  have hsupports := takeSupports_legible hlegible
  rw [hs] at hsupports
  obtain ⟨hcondition, hmedia⟩ := hsupports
  refine ⟨hend, hmedia.whole, fun n hn => (hname n hn).1.whole, fun c hc => ?_, fun w hw => ?_⟩
  · obtain ⟨u, rfl, -, -, hu⟩ := hcondition c hc
    exact hu.trim.whole
  · have hfits : ∀ name ∈ ["layer", "supports", "media"], ∀ c, Legible false c →
        Text.Trimmed isBlank c → ∀ k, (Item.opening [] (.atRule (.ofCondition name c))).Fits k := by
      intro name hname c hc htrim
      refine fits_ofCondition ?_ hc.whole (hc.trimmed_isGap htrim)
      simp only [List.mem_cons, List.not_mem_nil, or_false] at hname
      rcases hname with rfl | rfl | rfl <;> rfl
    simp only [wrappers, List.mem_append, Option.mem_toList, Option.map_eq_some_iff] at hw
    rcases hw with (⟨n, hn, rfl⟩ | ⟨c, hc, rfl⟩) | hw
    · exact hfits "layer" (by simp) n (hname n hn).1 (hname n hn).2
    · obtain ⟨u, rfl, hu⟩ := hcondition c hc
      have hstop := Behind.argument hp.supports hbehind' hu
      obtain ⟨-, -, hu⟩ := hu
      obtain ⟨hwhole, htrim⟩ := bracketed_legible hu hstop
      exact hfits "supports" (by simp) _ hwhole htrim
    · split at hw
      · cases hw
      · obtain rfl := List.mem_singleton.1 hw
        exact hfits "media" (by simp) _ hmedia.trim (Text.trimmed_trim isBlank _)

/-- Escapes and a comment, white space around the target, and brackets of both kinds. -/
theorem decoded_between_tokens_escapes :
    let params := ("url( \"a\\62 .css\" ) layer(b\\2e c) supports((d: e) and [f])" ++
      " print /* g */ and (h)").toList
    LegibleParams params ∧
      ∃ d, ofNode? (.statement [] ⟨"import".toList, params, [' '], []⟩ true) none = some d ∧
        d.EndsWithToken params ∧ d.layer = some "b\\2e c".toList ∧
        d.supports = some "(d: e) and [f]".toList ∧ d.media = "print /* g */ and (h)".toList ∧
        ∀ w ∈ d.wrappers, ∀ k, (Item.opening [] (.atRule w)).Fits k := by
  intro params
  let body : Text := ['a'] ++ '\\' :: '6' :: ("2 .css".toList ++ [])
  have hbody : StringBody '\x22' body := .chars (by simp) (.escaped (.chars (by simp) .nil))
  have hurl : Legible true ([' '] ++ '\x22' :: (body ++ '\x22' :: ([' '] ++ []))) :=
    .chars rfl (.string rfl hbody (by decide : '\x22' ∉ body) (Legible.chars rfl .nil))
  have hname : ∀ inner, Legible inner (['b'] ++ '\\' :: '2' :: ("e c".toList ++ [])) :=
    fun inner => .chars rfl (.escape (by simp [Lexicon.legible, isQuote, isBlank, isGap])
      (Legible.chars rfl .nil))
  have hcondition : ∀ inner, Legible inner
      ('(' :: ("d: e".toList ++ [] ++ ')' :: (" and ".toList ++ '[' :: (['f'] ++ [] ++ ']' :: [])))) :=
    fun inner => .group (.chars rfl .nil) (.chars rfl
      (.bracketed (.inr rfl) (.inr rfl) (.inr ⟨rfl, rfl⟩) (Legible.chars rfl .nil) .nil))
  have hcomment : Legible false ('/' :: '*' :: (" g ".toList ++ '*' :: '/' ::
      (" and ".toList ++ '(' :: (['h'] ++ [] ++ ')' :: [])))) :=
    .comment (by decide) (by simp [Lexicon.legible, isQuote])
      (Legible.chars rfl (.group (.chars rfl .nil) .nil))
  have htokens : Legible false params :=
    .chars (s := "url".toList) rfl (.group hurl (.chars (s := " layer".toList) rfl
      (.group (hname true) (.chars (s := " supports".toList) rfl
        (.group (hcondition true) (.chars (s := " print ".toList) rfl hcomment))))))
  have hparams : LegibleParams params := by
    refine ⟨htokens, fun u hu => ?_, fun a s hs _ u hu => ?_, fun a s hs _ u hu _ => ?_⟩
    · obtain rfl := eq_of_hasArgument hu ⟨_, rfl, hurl⟩
      exact .inl ⟨[' '], '\x22', body, [' '], rfl, by simp [isBlank], rfl, by decide,
        by simp [isBlank]⟩
    · obtain rfl := eq_of_only_argument (n := 19) (by decide +kernel) ⟨_, rfl, hname true⟩
        ⟨a, hs.symm⟩ hu
      exact ⟨hname false, by decide⟩
    · obtain rfl :=
        eq_of_only_argument (n := 33) (by decide +kernel) ⟨_, rfl, hcondition true⟩
          ⟨a, hs.symm⟩ hu
      exact hcondition false
  let d : Import :=
    { target := "a\\62 .css".toList, quote := some '\x22', inUrl := true,
      media := "print /* g */ and (h)".toList, layer := some "b\\2e c".toList,
      supports := some "(d: e) and [f]".toList, start := 6, stop := 15 }
  have hd : ofNode? (.statement [] ⟨"import".toList, params, [' '], []⟩ true) none = some d := rfl
  obtain ⟨hend, -, -, -, hfits⟩ := decoded_between_tokens hd hparams
  exact ⟨hparams, d, hd, hend, rfl, rfl, rfl, hfits⟩

/-- A string with an escaped quote in it is cut at that quote. What is left for the media has an open
string, and the head of the block for them is not read back. -/
theorem decoded_within_token :
    let params := "\"a\\\"b.css\" print".toList
    let h : AtHead := ⟨"import".toList, params, [' '], []⟩
    Sheet.parse "@import \"a\\\"b.css\" print;".toList none =
        .ok ⟨[.statement [] h true], [], none⟩ ∧
      Whole false params ∧
      ∃ d, ofNode? (.statement [] h true) none = some d ∧ ¬ d.EndsWithToken params ∧
        ¬ Whole true d.media ∧
        ∃ w ∈ d.wrappers, ∀ k, ¬ (Item.opening [] (.atRule w)).Fits k := by
  intro params h
  let d : Import :=
    { target := "a\\".toList, quote := some '\x22', media := "b.css\" print".toList, start := 1,
      stop := 3 }
  have hparse : Sheet.parse "@import \"a\\\"b.css\" print;".toList none =
      .ok ⟨[.statement [] h true], [], none⟩ :=
    (parse_statement_iff "import".toList (' ' :: params) rfl (Text.clear_cons.2 rfl)).2
      ⟨by decide +kernel, rfl⟩
  have hwhole : Whole false params := by
    have hbody : StringBody '\x22' (['a'] ++ '\\' :: '\x22' :: ("b.css".toList ++ [])) :=
      .chars (by simp) (.escaped (.chars (by simp) .nil))
    have hmedia : Whole false (" print".toList ++ []) :=
      .chars (by simp [isSingle, isQuote, isStop, Lexicon.all]) .nil
    exact .string rfl hbody trivial hmedia
  refine ⟨hparse, hwhole, d, rfl, fun hend => ?_, fun hmedia => ?_, ?_⟩
  · generalize hp : params = p at hend
    cases hend with
    | @string q body rest quote closed stop =>
      have hlength : body.length = 2 := by
        have hstop : 3 = 1 + body.length := stop
        omega
      have hbody : (params.drop 1).take 2 = body := by
        rw [hp]
        exact List.take_left' hlength
      rw [← hbody] at closed
      cases closed with
      | char _ _ rest =>
        cases rest with
        | char backslash => exact backslash rfl
    | @url w arg gap rest word =>
      cases w with
      | nil => cases word
      | cons c w =>
        have hc : some '\x22' = some c := congrArg List.head? hp
        cases hc
        cases word
  · have hclosed : Closed ('(' :: (d.media ++ ')' :: [])) :=
      Whole.closed (.bracketed (.inl rfl) (.inl rfl) trivial hmedia .nil)
    exact absurd hclosed (by decide +kernel)
  · refine ⟨.ofCondition "media" d.media, List.mem_singleton.2 rfl, fun k hfits => ?_⟩
    have hclosed := Item.closed_of_endsIn rfl (Item.regular_of_item hfits).2
    exact absurd hclosed (by decide +kernel)

end Import

end StyleSplice
