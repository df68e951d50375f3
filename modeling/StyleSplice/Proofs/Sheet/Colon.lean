import StyleSplice.Proofs.Sheet.Mistakes
import StyleSplice.Proofs.Sheet.Modes

/-!
# Where a declaration is split

The span of a declaration is read with the escapes in it, the colon that splits it is looked for
without them. So the colon is the first one outside strings, comments and escapes as long as no escape
hides a character that means something: a colon, a quote or the start of a comment outside strings,
the quote of the string in a string. Otherwise the two readings may part: an escaped colon splits a
declaration, and an escaped quote may hide the colon from the search, so that the declaration is
refused.
-/

namespace StyleSplice

open Text (consPart consPart_eq_some_iff)

/-- The parts of a text before and after its first colon outside strings and comments, when the text
starts inside something. With `escapes` a backslash hides the next character, as it does in a span;
without, it is a character like any other. -/
def firstColon (escapes : Bool) : Inside → Text → Option (Text × Text)
  | _, [] => none
  | .plain, '/' :: '*' :: r =>
    consPart '/' (consPart '*' (firstColon escapes (.comment []) r))
  | .plain, c :: r =>
    if isQuote c then consPart c (firstColon escapes (.string c []) r)
    else if escapes ∧ c = '\\' then consPart c (firstColon escapes .escape r)
    else if c = ':' then some ([], r)
    else consPart c (firstColon escapes .plain r)
  | .escape, c :: r => consPart c (firstColon escapes .plain r)
  | .string q opened, c :: r =>
    if escapes ∧ c = '\\' then consPart c (firstColon escapes (.stringEscape q opened) r)
    else if c = q then consPart c (firstColon escapes .plain r)
    else consPart c (firstColon escapes (.string q opened) r)
  | .stringEscape q opened, c :: r => consPart c (firstColon escapes (.string q opened) r)
  | .comment _, '*' :: '/' :: r => consPart '*' (consPart '/' (firstColon escapes .plain r))
  | .comment opened, c :: r => consPart c (firstColon escapes (.comment opened) r)

/-- No escape up to the first colon hides a character that means something where it stands. -/
def EscapesHarmless : Inside → Text → Prop
  | _, [] => True
  | .plain, '/' :: '*' :: r => EscapesHarmless (.comment []) r
  | .plain, c :: r =>
    if isQuote c then EscapesHarmless (.string c []) r
    else if c = '\\' then EscapesHarmless .escape r
    else if c = ':' then True
    else EscapesHarmless .plain r
  | .escape, c :: r =>
    isQuote c = false ∧ c ≠ ':' ∧ (c = '/' → r.head? ≠ some '*') ∧ EscapesHarmless .plain r
  | .string q opened, c :: r =>
    if c = '\\' then EscapesHarmless (.stringEscape q opened) r
    else if c = q then EscapesHarmless .plain r
    else EscapesHarmless (.string q opened) r
  | .stringEscape q opened, c :: r => c ≠ q ∧ EscapesHarmless (.string q opened) r
  | .comment _, '*' :: '/' :: r => EscapesHarmless .plain r
  | .comment opened, _ :: r => EscapesHarmless (.comment opened) r

/-- The strings that a text may start in begin with a quote. -/
def Inside.Quoted : Inside → Prop
  | .string q _ => isQuote q = true
  | .stringEscape q _ => isQuote q = true
  | _ => True

/-- What the next character is in if a backslash hides nothing. -/
def Inside.unescaped : Inside → Inside
  | .plain => .plain
  | .escape => .plain
  | .string q opened => .string q opened
  | .stringEscape q opened => .string q opened
  | .comment opened => .comment opened

/-- The state of the search for a colon when its next character is in something. -/
inductive Inside.Seeks : Inside → Option Char → Bool → Prop
  | plain : Seeks .plain none false
  | string {q : Char} {opened : Text} : Seeks (.string q opened) (some q) false
  | comment {opened : Text} : Seeks (.comment opened) none true

theorem head?_ne_of_forall {c a b : Char} {r : Text} (h : ∀ r', c = a → r = b :: r' → False) :
    c = a → r.head? ≠ some b := by
  intro hc hr
  obtain ⟨r', hr⟩ := List.head?_eq_some_iff.1 hr
  exact h r' hc hr

theorem firstColon_plain {escapes : Bool} {c : Char} {r : Text} (h : c = '/' → r.head? ≠ some '*') :
    firstColon escapes .plain (c :: r) =
      if isQuote c then consPart c (firstColon escapes (.string c []) r)
      else if escapes ∧ c = '\\' then consPart c (firstColon escapes .escape r)
      else if c = ':' then some ([], r)
      else consPart c (firstColon escapes .plain r) := by
  rw [firstColon]
  intro r' hc hr
  subst hc hr
  simp at h

/-- The search for a colon knows no escapes. -/
theorem firstColon_false {mode : Inside} {quote : Option Char} {commented : Bool} {s : Text}
    (h : mode.Seeks quote commented) : firstColon false mode s = cutColon quote commented s := by
  fun_induction cutColon quote commented s generalizing mode with
  | case1 => cases h <;> rfl
  | case2 commented q r ih =>
    cases h
    rw [firstColon, if_neg (by simp), if_pos rfl, ih .plain]
  | case3 q commented c r hc ih =>
    cases h
    rw [firstColon, if_neg (by simp), if_neg hc, ih .string]
  | case4 r ih =>
    cases h
    rw [firstColon, ih .plain]
  | case5 c r hend ih =>
    cases h
    rw [firstColon, ih .comment]
    exact hend
  | case6 r ih =>
    cases h
    rw [firstColon, ih .comment]
  | case7 c r hstart hq ih =>
    cases h
    rw [firstColon, if_pos hq, ih .string]
    exact hstart
  | case8 r hstart hq =>
    cases h
    rw [firstColon, if_neg hq, if_neg (by simp), if_pos rfl]
    exact hstart
  | case9 c r hstart hq hc ih =>
    cases h
    rw [firstColon, if_neg hq, if_neg (by simp), if_neg hc, ih .plain]
    exact hstart

/-- With harmless escapes the first colon is the same whether they are read or not. -/
theorem firstColon_of_harmless {mode : Inside} {s : Text} (hm : mode.Quoted)
    (h : EscapesHarmless mode s) :
    firstColon true mode s = firstColon false mode.unescaped s := by
  fun_induction EscapesHarmless mode s with
  | case1 mode => cases mode <;> rfl
  | case2 r ih =>
    rw [Inside.unescaped, firstColon, firstColon, ih trivial h]
    rfl
  | case3 c r hstart hq ih =>
    have hr : c = '/' → r.head? ≠ some '*' := head?_ne_of_forall hstart
    rw [Inside.unescaped, firstColon_plain hr, firstColon_plain hr, if_pos hq, if_pos hq, ih hq h]
    rfl
  | case4 r hstart hq ih =>
    rw [Inside.unescaped, firstColon_plain (by simp), firstColon_plain (by simp), if_neg hq,
      if_neg hq, if_pos (by simp), if_neg (by simp), if_neg (by decide), ih trivial h]
    rfl
  | case5 r hstart hq hb =>
    rw [Inside.unescaped, firstColon_plain (by simp), firstColon_plain (by simp), if_neg hq,
      if_neg (by simp), if_pos rfl, if_neg hq, if_neg (by simp), if_pos rfl]
  | case6 c r hstart hq hb hc ih =>
    have hr : c = '/' → r.head? ≠ some '*' := head?_ne_of_forall hstart
    rw [Inside.unescaped, firstColon_plain hr, firstColon_plain hr, if_neg hq, if_neg hq,
      if_neg (by simp [hb]), if_neg hc, if_neg (by simp), if_neg hc, ih trivial h]
    rfl
  | case7 c r ih =>
    obtain ⟨hq, hc, hr, hrest⟩ := h
    have hescape : firstColon true .escape (c :: r) = consPart c (firstColon true .plain r) := by
      rw [firstColon]
    rw [Inside.unescaped, firstColon_plain hr, if_neg (by simp [hq]), if_neg (by simp),
      if_neg hc, hescape, ih trivial hrest]
    rfl
  | case8 q opened r ih =>
    have hne : '\\' ≠ q := by
      rintro rfl
      cases hm
    rw [Inside.unescaped, firstColon, if_pos (by simp), firstColon, if_neg (by simp), if_neg hne,
      ih hm h]
    rfl
  | case9 q opened r hb ih =>
    rw [Inside.unescaped, firstColon, if_neg (by simp [hb]), if_pos rfl, firstColon,
      if_neg (by simp), if_pos rfl, ih trivial h]
    rfl
  | case10 q opened c r hb hc ih =>
    rw [Inside.unescaped, firstColon, if_neg (by simp [hb]), if_neg hc, firstColon,
      if_neg (by simp), if_neg hc, ih hm h]
    rfl
  | case11 q opened c r ih =>
    rw [Inside.unescaped, firstColon, firstColon, if_neg (by simp), if_neg h.1, ih hm h.2]
    rfl
  | case12 opened r ih =>
    rw [Inside.unescaped, firstColon, firstColon, ih trivial h]
    rfl
  | case13 opened c r hend ih =>
    rw [Inside.unescaped, firstColon, firstColon, ih trivial h]
    · rfl
    · exact hend
    · exact hend

theorem firstColon_append {escapes : Bool} {mode : Inside} {s front back : Text}
    (h : firstColon escapes mode s = some (front, back)) : front ++ ':' :: back = s := by
  fun_induction firstColon escapes mode s generalizing front back <;> grind

/-- A text that starts inside something at a depth of brackets, and after which the span reader takes
a colon as a plain character, whatever follows it. -/
def PlainAt (mode : Inside) (depth : Nat) (front : Text) : Prop :=
  ∃ depth', ∀ m : Inside, m.kind = mode.kind → ∀ rest,
    spanFrom m depth (front ++ ':' :: rest) =
      front.foldr consSpan (spanFrom .plain depth' (':' :: rest))

/-- In front of the first colon nothing is open. -/
theorem after_of_firstColon {mode : Inside} {s front back : Text} (depth : Nat)
    (h : firstColon true mode s = some (front, back)) : (mode.after depth front).1 = .plain := by
  -- no mark of two characters begins in the text in front of the colon, if none does in the whole
  have hhead : ∀ {m : Inside} {c a b : Char} {r u : Text},
      firstColon true m r = some (u, back) → (∀ r', c = a → r = b :: r' → False) →
        c = a → u.head? ≠ some b := by
    intro m c a b r u hu hr hc ha
    obtain ⟨u', rfl⟩ := List.head?_eq_some_iff.1 ha
    exact hr _ hc (firstColon_append hu).symm
  fun_induction firstColon true mode s generalizing front depth with
  | case1 => cases h
  | case2 r ih =>
    obtain ⟨x, rfl, hx⟩ := consPart_eq_some_iff.1 h
    obtain ⟨y, rfl, hy⟩ := consPart_eq_some_iff.1 hx
    exact ih depth hy
  | case3 c r hcomment hq ih =>
    obtain ⟨x, rfl, hx⟩ := consPart_eq_some_iff.1 h
    rw [Inside.after_plain (hhead hx hcomment), if_pos hq, ih depth hx]
  | case4 c r hcomment hq hb ih =>
    obtain ⟨x, rfl, hx⟩ := consPart_eq_some_iff.1 h
    rw [Inside.after_plain (hhead hx hcomment), if_neg hq, if_pos hb.2, ih depth hx]
  | case5 r hcomment hq hb =>
    cases h
    rfl
  | case6 c r hcomment hq hb hc ih =>
    obtain ⟨x, rfl, hx⟩ := consPart_eq_some_iff.1 h
    rw [Inside.after_plain (hhead hx hcomment), if_neg hq, if_neg fun hc => hb ⟨rfl, hc⟩]
    split_ifs <;> exact ih _ hx
  | case7 c r ih =>
    obtain ⟨x, rfl, hx⟩ := consPart_eq_some_iff.1 h
    rw [Inside.after, ih depth hx]
  | case8 q opened c r hb ih =>
    obtain ⟨x, rfl, hx⟩ := consPart_eq_some_iff.1 h
    rw [Inside.after, if_pos hb.2, ih depth hx]
  | case9 q opened r hb ih =>
    obtain ⟨x, rfl, hx⟩ := consPart_eq_some_iff.1 h
    rw [Inside.after, if_neg fun hq => hb ⟨rfl, hq⟩, if_pos rfl, ih depth hx]
  | case10 q opened c r hb hq ih =>
    obtain ⟨x, rfl, hx⟩ := consPart_eq_some_iff.1 h
    rw [Inside.after, if_neg fun hc => hb ⟨rfl, hc⟩, if_neg hq, ih depth hx]
  | case11 q opened c r ih =>
    obtain ⟨x, rfl, hx⟩ := consPart_eq_some_iff.1 h
    rw [Inside.after, ih depth hx]
  | case12 opened r ih =>
    obtain ⟨x, rfl, hx⟩ := consPart_eq_some_iff.1 h
    obtain ⟨y, rfl, hy⟩ := consPart_eq_some_iff.1 hx
    exact ih depth hy
  | case13 opened c r hend ih =>
    obtain ⟨x, rfl, hx⟩ := consPart_eq_some_iff.1 h
    rw [Inside.after_comment (hhead hx hend), ih depth hx]

/-- The first colon stands where the span reader takes it as a plain character. -/
theorem plainAt_of_firstColon {mode : Inside} {depth : Nat} {s raw stop front back : Text}
    (hspan : spanFrom mode depth s = .ok (raw, stop))
    (hcolon : firstColon true mode.kind raw = some (front, back)) : PlainAt mode depth front := by
  have hseam : ∀ rest, Inside.Seamless front (':' :: rest) :=
    fun rest => Inside.seamless_of_head (by simp) (by simp)
  obtain rfl : front ++ ':' :: back = raw := firstColon_append hcolon
  obtain rfl : front ++ ':' :: back ++ stop = s := spanFrom_append hspan
  rw [List.append_assoc] at hspan
  refine ⟨(mode.kind.after depth front).2, fun m hm rest => ?_⟩
  obtain ⟨n, hn, hrun⟩ := Inside.spanFrom_front rfl hm (hseam _) (hseam rest) hspan
  rw [after_of_firstColon depth hcolon] at hn
  cases n <;> cases hn
  exact hrun

/-- A declaration made of the texts before and after its colon, up to the white space at their ends. -/
structure Declaration.SplitAt (front back : Text) (d : Declaration) : Prop where
  property : d.property = Text.trimEnd isGap front
  value : d.value = Text.trim isGap back
  between : d.between = Text.trailing isGap front ++ ':' :: Text.leading isGap back

/-- What the reader makes of a text `s` that starts a declaration, when the colon that splits its span
is the given one. Without a colon the sheet is refused at `s`. -/
structure SplitBy (source before s : Text) (origin : Option Text) (colon : Option (Text × Text)) :
    Prop where
  refused : Sheet.parse source origin = .error ⟨.unknownWord, s⟩ ↔ colon = none
  split : ∀ front back, colon = some (front, back) → ∃ d : Declaration,
    d.SplitAt front back ∧ d.before = before ∧
      (∃ r, item (before ++ s) = .ok (.leaf (.declaration d), r)) ∧
      ∀ t, Sheet.parse source origin = .ok t → .declaration d ∈ Node.walkAll t.children

theorem Declaration.splitAt_ofRaw (before front back : Text) :
    (Declaration.ofRaw before front back).SplitAt front back := ⟨rfl, rfl, rfl⟩

/-- A node without children that is an item of a list is a node of the list, at some depth. -/
theorem Node.mem_walkAll_of_leaf {n : Node} {ns : List Node} (h : .leaf n ∈ Node.itemsOf ns) :
    n ∈ Node.walkAll ns := by
  have hnode : ∀ m : Node, .leaf n ∈ m.items → n ∈ m.walk := by
    intro m
    induction m using Node.induction with
    | leaf m hm =>
      intro h
      rw [hm, List.mem_singleton] at h
      cases h
      exact Node.mem_walk_self _
    | block before hd children after ih =>
      intro h
      rw [Node.items_block, List.mem_cons, List.mem_append, List.mem_singleton] at h
      rcases h with h | h | h
      · cases h
      · obtain ⟨k, hk, hleaf⟩ := Node.mem_itemsOf.1 h
        rw [Node.walk]
        exact List.mem_cons_of_mem _ (Node.mem_walkAll.2 ⟨k, hk, ih k hk hleaf⟩)
      · cases h
  obtain ⟨m, hm, hleaf⟩ := Node.mem_itemsOf.1 h
  exact Node.mem_walkAll.2 ⟨m, hm, hnode m hleaf⟩

/-- An unknown word is in the text that is still to be read. -/
theorem isSuffix_of_unknownWord {stack : List OpenBlock} {done : List Node} {s rest : Text}
    (h : readNodes stack done s = .error ⟨.unknownWord, rest⟩) : rest <:+ s := by
  fun_induction readNodes stack done s with
  | case1 stack done s f hi =>
    cases h
    exact (shownIn_of_item hi).1
  | case2 stack done s n r hi ih => exact (ih h).trans ⟨_, item_text hi⟩
  | case3 stack done s before head r hi ih => exact (ih h).trans ⟨_, item_text hi⟩
  | case4 => cases h
  | case5 done s before r hi o stack ih =>
    rw [List.unattach_reverse, List.unattach_attach] at ih
    exact (ih h).trans ⟨_, item_text hi⟩
  | case6 => cases h
  | case7 => cases h

namespace Reading

variable {source s r : Text} {stack : List OpenBlock} {done : List Node}

/-- From any state of the reading on the reader goes on as it does from the start. -/
theorem readNodes_eq (h : Reading source stack done s) :
    readNodes [] [] source = readNodes stack done s := by
  have hnodes : ∀ {x : Text} {stack : List OpenBlock} {done : List Node} {s : Text},
      Reads x (Node.itemsOf done.reverse) s → readNodes stack [] x = readNodes stack done s := by
    intro x stack done s hreads
    rw [readNodes_itemsOf_of_forall (fun n _ s r stack done h => readNodes_items h stack done)
      hreads, List.reverse_reverse, List.append_nil]
  induction h with
  | top nodes => exact hnodes nodes
  | inside outer opening nodes ih => rw [ih, readNodes_opening opening, hnodes nodes]

/-- A node that is read next is a node of the sheet, at some depth. -/
theorem mem_walkAll {n : Node} {origin : Option Text} {t : Sheet}
    (h : Reading source stack done s) (hn : item s = .ok (.leaf n, r))
    (ht : Sheet.parse source origin = .ok t) : n ∈ Node.walkAll t.children := by
  unfold Sheet.parse at ht
  rw [h.readNodes_eq] at ht
  split at ht
  · rename_i children after hread
    cases ht
    rw [readNodes_leaf hn] at hread
    obtain ⟨its, -, hits⟩ := reads_of_readNodes hread
    have hmem : Item.leaf n ∈ Node.itemsOf children ++ [.finish after] := by
      rw [← hits]
      simp [items_of_item hn]
    rw [List.mem_append, List.mem_singleton] at hmem
    exact Node.mem_walkAll_of_leaf (hmem.resolve_right (by simp))
  · cases ht

end Reading

/-- The item of a declaration is found by the search for a colon without escapes. -/
theorem item_of_span {before s raw stop : Text} (hbefore : Text.All isTrivia before)
    (hs : Text.Clear isTrivia s) (hplain : startsPlain s) (hspan : span s = .ok (raw, stop))
    (hstop : stop.head? ≠ some '\x7b') :
    (cutColon none false raw = none → item (before ++ s) = .error ⟨.unknownWord, s⟩) ∧
    ∀ front back, cutColon none false raw = some (front, back) → ∃ d : Declaration,
      d.SplitAt front back ∧ d.before = before ∧
        ∃ r, item (before ++ s) = .ok (.leaf (.declaration d), r) := by
  have hitem : item (before ++ s) = plainItem before s raw stop := by
    rw [item, Text.trimStart_of_all hbefore, Text.trimStart_of_clear hs,
      Text.leading_of_all hbefore, Text.leading_of_clear hs, List.append_nil,
      itemAfter_of_startsPlain hplain, hspan]
  rw [hitem]
  unfold plainItem
  split
  · simp at hstop
  · refine ⟨fun hc => by rw [hc], fun front back hc => ?_⟩
    rw [hc]
    simp only
    split
    · exact ⟨_, Declaration.splitAt_ofRaw before front back, rfl, _, rfl⟩
    · exact ⟨_, ⟨rfl, rfl, rfl⟩, rfl, _, rfl⟩

theorem splitBy_of_span {source before s raw stop : Text} {stack : List OpenBlock}
    {done : List Node} (h : Reading source stack done (before ++ s))
    (hbefore : Text.All isTrivia before) (hs : Text.Clear isTrivia s) (hplain : startsPlain s)
    (hspan : span s = .ok (raw, stop)) (hstop : stop.head? ≠ some '\x7b') (origin : Option Text) :
    SplitBy source before s origin (cutColon none false raw) := by
  obtain ⟨hnone, hsome⟩ := item_of_span hbefore hs hplain hspan hstop
  refine ⟨⟨fun hrefused => ?_, fun hc => ?_⟩, fun front back hc => ?_⟩
  · cases hcolon : cutColon none false raw with
    | none => rfl
    | some x =>
      -- the mistake would be in what is left after the declaration, which is shorter
      obtain ⟨d, hsplit, hd, r, hitem⟩ := hsome x.1 x.2 hcolon
      have hread : readNodes stack (.declaration d :: done) r = .error ⟨.unknownWord, s⟩ := by
        unfold Sheet.parse at hrefused
        rw [h.readNodes_eq, readNodes_leaf hitem] at hrefused
        split at hrefused
        · cases hrefused
        · rename_i hread
          cases hrefused
          exact hread
      have hle : s.length ≤ r.length := (isSuffix_of_unknownWord hread).length_le
      have hbetween : 0 < d.between.length := by
        rw [hsplit.between, List.length_append, List.length_cons]
        omega
      have hlength : (d.text ++ r).length = (before ++ s).length := congrArg _ (item_text hitem)
      simp only [Declaration.text, List.length_append, hd] at hlength
      omega
  · unfold Sheet.parse
    rw [h.readNodes_eq, readNodes_error (hnone hc)]
  · obtain ⟨d, hsplit, hd, r, hitem⟩ := hsome front back hc
    exact ⟨d, hsplit, hd, ⟨r, hitem⟩, fun t => h.mem_walkAll hitem⟩

/-- A declaration is split at the first colon of its span outside strings and comments, where a string
ends at the next quote of its kind, and without such a colon the sheet is refused. If the escapes are
harmless, that is the first colon which the span reader takes outside strings, comments and escapes. -/
theorem declaration_splitBy {source before s raw stop : Text} {stack : List OpenBlock}
    {done : List Node} (h : Reading source stack done (before ++ s))
    (hbefore : Text.All isTrivia before) (hs : Text.Clear isTrivia s) (hplain : startsPlain s)
    (hspan : span s = .ok (raw, stop)) (hstop : stop.head? ≠ some '\x7b') (origin : Option Text) :
    SplitBy source before s origin (firstColon false .plain raw) ∧
      (EscapesHarmless .plain raw →
        SplitBy source before s origin (firstColon true .plain raw)) ∧
      ∀ front back, firstColon true .plain raw = some (front, back) → ∃ depth, ∀ rest,
        span (front ++ ':' :: rest) = front.foldr consSpan (spanFrom .plain depth (':' :: rest)) := by
  have hsplit := splitBy_of_span h hbefore hs hplain hspan hstop origin
  rw [← firstColon_false .plain] at hsplit
  refine ⟨hsplit, fun hharmless => ?_, fun front back hcolon => ?_⟩
  · rw [firstColon_of_harmless (show Inside.plain.Quoted from trivial) hharmless]
    exact hsplit
  · obtain ⟨depth, hplain⟩ := plainAt_of_firstColon hspan hcolon
    exact ⟨depth, hplain .plain rfl⟩

/-- Strings with escapes of their own, an escaped character and a comment in front of the colon, in a
block and after another declaration. -/
theorem declaration_splitBy_strings :
    let s := "a\\62/*:*/'\\a:\"' [x:y] : 'z:'\x7d".toList
    let raw := "a\\62/*:*/'\\a:\"' [x:y] : 'z:'".toList
    span s = .ok (raw, ['\x7d']) ∧
      SplitBy ("p\x7bq:r;; ".toList ++ s) "; ".toList s none
        (some ("a\\62/*:*/'\\a:\"' [x".toList, "y] : 'z:'".toList)) := by
  intro s raw
  have hopen : item ("p\x7bq:r;; ".toList ++ s) =
      .ok (.opening [] (.rule ['p'] []), "q:r;; ".toList ++ s) := rfl
  have hfirst : item ("q:r;; ".toList ++ s) =
      .ok (.leaf (.declaration ⟨['q'], ['r'], [], [':'], [], true⟩), "; ".toList ++ s) := rfl
  let o : OpenBlock := ⟨[], .rule ['p'] [], "q:r;; ".toList ++ s, []⟩
  have hreading : Reading ("p\x7bq:r;; ".toList ++ s) [o]
      [.declaration ⟨['q'], ['r'], [], [':'], [], true⟩] ("; ".toList ++ s) :=
    .inside (.top (.nil _)) hopen (.cons hfirst (.nil _))
  have hspan : span s = .ok (raw, ['\x7d']) := rfl
  have hharmless : EscapesHarmless .plain raw := by
    simp [raw, EscapesHarmless, isQuote]
  have hbefore : Text.All isTrivia "; ".toList := by simp [isTrivia, isGap]
  have hs : Text.Clear isTrivia s := Text.clear_cons.2 rfl
  exact ⟨hspan,
    (declaration_splitBy hreading hbefore hs rfl hspan (by decide) none).2.1 hharmless⟩

/-- An escaped quote hides the colon behind its string from the search, so that a declaration with a
colon is refused, and an escaped colon splits a declaration that has no other. -/
theorem colons_differ_at_escapes :
    let s := "a'\\'':b".toList
    let s' := "a\\:b".toList
    (span s = .ok (s, []) ∧ firstColon true .plain s = some ("a'\\''".toList, ['b']) ∧
      Sheet.parse s = .error ⟨.unknownWord, s⟩) ∧
    span s' = .ok (s', []) ∧ firstColon true .plain s' = none ∧
      Sheet.parse s' =
        .ok ⟨[.declaration ⟨"a\\".toList, ['b'], [], [':'], [], false⟩], [], none⟩ := by
  intro s s'
  have hitem : item s = .error ⟨.unknownWord, s⟩ := rfl
  refine ⟨⟨rfl, rfl, ?_⟩, rfl, rfl, ?_⟩
  · rw [Sheet.parse, readNodes_error hitem]
  · exact parse_eq_ok_iff.2 ⟨rfl, .cons rfl (.cons rfl (.nil []))⟩

end StyleSplice
