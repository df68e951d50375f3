import StyleSplice.Proofs.Sheet.Local
import StyleSplice.Report.Fault

/-!
# Mistakes are where they are reported

A text that is no style sheet is refused with a mistake and a place. What stands at that place shows
the mistake, and for a brace without a partner what is inside the block, or in front of it, is a style
sheet. The reading up to the mistake is followed block by block.
-/

namespace StyleSplice

namespace Text

/-- The number of backslashes at the end of a text is odd, so that the last one escapes what follows. -/
def Escapes (u : Text) : Prop := (trailing (· == '\\') u).length % 2 = 1

theorem escapes_cons {c : Char} (hc : c ≠ '\\') (u : Text) : Escapes (c :: u) ↔ Escapes u := by
  rw [Escapes, trailing_cons (.inl (by simp [hc])), Escapes]

/-- A pair of a backslash and another character escapes nothing after it. -/
theorem escapes_pair (c : Char) (u : Text) : Escapes ('\\' :: c :: u) ↔ Escapes u := by
  by_cases hc : c = '\\'
  · subst hc
    by_cases hu : trimEnd (· == '\\') u = []
    · have hone : trimEnd (· == '\\') ('\\' :: u) = [] := by simp [trimEnd, hu]
      have htwo : trimEnd (· == '\\') ('\\' :: '\\' :: u) = [] := by
        rw [trimEnd, hone]
        rfl
      rw [Escapes, trailing_eq_self htwo, Escapes, trailing_eq_self hu]
      simp only [List.length_cons]
      omega
    · have hone : trimEnd (· == '\\') ('\\' :: u) ≠ [] := by simp [trimEnd_cons (.inr hu)]
      rw [Escapes, trailing_cons (.inr hone), trailing_cons (.inr hu), Escapes]
  · have hkeep : (c == '\\') = false := by simp [hc]
    have htrim : trimEnd (· == '\\') (c :: u) = c :: trimEnd (· == '\\') u :=
      trimEnd_cons (.inl hkeep)
    rw [Escapes, trailing_cons (.inr (by simp [htrim])), ← Escapes, escapes_cons hc]

end Text

/-- The names of at-rules: a letter or an underscore, after an optional hyphen, and more characters of
words and hyphens. -/
def IsName (name : Text) : Prop :=
  ∃ c r, (name = c :: r ∨ name = '-' :: c :: r) ∧ isNameStart c = true ∧ Text.All isNameMore r

/-- What shows a mistake, in the text in front of its place and in the text from there on. -/
def Mistake.Shows (front rest : Text) : Mistake → Prop
  | .unclosedString =>
    ∃ q t, isQuote q = true ∧ rest = q :: t ∧ ∀ u v, t = u ++ q :: v → Text.Escapes u
  | .unclosedComment => ∃ t, rest = '/' :: '*' :: t ∧ ¬ ['*', '/'] <:+: t
  | .unclosedBlock => ∃ t u, rest = '{' :: t ∧ Sheet.parse t = .ok u
  | .unexpectedBrace => ∃ t u, rest = '}' :: t ∧ Sheet.parse front = .ok u
  | .namelessAtRule => ∃ t, rest = '@' :: t ∧ ∀ name, IsName name → ¬ name <+: t
  | .unknownWord =>
    ∃ c t, rest = c :: t ∧ isGap c = false ∧ c ≠ ';' ∧ c ≠ '}' ∧ c ≠ '@' ∧ ¬ ['/', '*'] <+: rest

/-- The mistake is in the text and shows from its place on, whatever stands in front. -/
def SheetFault.ShownIn (s : Text) (f : SheetFault) : Prop :=
  f.rest <:+ s ∧ ∀ front, f.mistake.Shows front f.rest

theorem SheetFault.ShownIn.mono {f : SheetFault} {r s : Text} (h : f.ShownIn r) (hs : r <:+ s) :
    f.ShownIn s := ⟨h.1.trans hs, h.2⟩

theorem consSpan_eq_error_iff {c : Char} {x : Except SheetFault (Text × Text)} {f : SheetFault} :
    consSpan c x = .error f ↔ x = .error f := by
  cases x <;> simp [consSpan]

/-- What a failing span says, by what its first character is in: the string or comment that it is in
does not end, or a later one does not. -/
def Inside.Fails (s : Text) (f : SheetFault) : Inside → Prop
  | .plain => f.ShownIn s
  | .escape => f.ShownIn s
  | .string q opened => isQuote q = true →
    (f = ⟨.unclosedString, opened⟩ ∧ ∀ u v, s = u ++ q :: v → Text.Escapes u) ∨ f.ShownIn s
  | .stringEscape q opened => isQuote q = true →
    (f = ⟨.unclosedString, opened⟩ ∧ ∀ u v, s = u ++ q :: v → Text.Escapes ('\\' :: u)) ∨
      f.ShownIn s
  | .comment opened =>
    (f = ⟨.unclosedComment, opened⟩ ∧ ¬ ['*', '/'] <:+: s) ∨ f.ShownIn s

/-- What stands in front of a character of a text is nothing, or begins with the first character. -/
theorem forall_of_cons {c q : Char} {r : Text} {P : Text → Prop} (hnil : c = q → P [])
    (hcons : ∀ u v, r = u ++ q :: v → P (c :: u)) : ∀ u v, c :: r = u ++ q :: v → P u := by
  intro u v h
  cases u with
  | nil => exact hnil (List.cons_eq_cons.1 h).1
  | cons a u =>
    obtain ⟨rfl, hr⟩ := List.cons_eq_cons.1 h
    exact hcons u v hr

theorem fails_of_spanFrom {mode : Inside} {depth : Nat} {s : Text} {f : SheetFault}
    (h : spanFrom mode depth s = .error f) : mode.Fails s f := by
  fun_induction spanFrom mode depth s with
  | case1 => cases h
  | case2 => cases h
  | case3 depth q opened =>
    cases h
    exact fun _ => .inl ⟨rfl, by simp⟩
  | case4 depth q opened =>
    cases h
    exact fun _ => .inl ⟨rfl, by simp⟩
  | case5 depth opened =>
    cases h
    exact .inl ⟨rfl, by decide⟩
  | case6 depth r ih =>
    rcases ih (consSpan_eq_error_iff.1 (consSpan_eq_error_iff.1 h)) with ⟨rfl, hend⟩ | hr
    · exact ⟨List.suffix_refl _, fun _ => ⟨r, rfl, hend⟩⟩
    · exact hr.mono ⟨['/', '*'], rfl⟩
  | case7 depth c r hcomment hq ih =>
    rcases ih (consSpan_eq_error_iff.1 h) hq with ⟨rfl, hend⟩ | hr
    · exact ⟨List.suffix_refl _, fun _ => ⟨c, r, hq, rfl, hend⟩⟩
    · exact hr.mono (List.suffix_cons c r)
  | case8 depth r hcomment hq ih =>
    exact (ih (consSpan_eq_error_iff.1 h)).mono (List.suffix_cons _ r)
  | case9 depth c r hcomment hq hb ho ih =>
    exact (ih (consSpan_eq_error_iff.1 h)).mono (List.suffix_cons c r)
  | case10 depth c r hcomment hq hb ho hc ih =>
    exact (ih (consSpan_eq_error_iff.1 h)).mono (List.suffix_cons c r)
  | case11 => cases h
  | case12 depth c r hcomment hq hb ho hc hstop ih =>
    exact (ih (consSpan_eq_error_iff.1 h)).mono (List.suffix_cons c r)
  | case13 depth c r ih =>
    exact (ih (consSpan_eq_error_iff.1 h)).mono (List.suffix_cons c r)
  | case14 q opened depth r ih =>
    intro hq
    rcases ih (consSpan_eq_error_iff.1 h) hq with ⟨rfl, hend⟩ | hr
    · refine .inl ⟨rfl, forall_of_cons ?_ hend⟩
      rintro rfl
      cases hq
    · exact .inr (hr.mono (List.suffix_cons _ r))
  | case15 q opened depth r hb ih =>
    exact fun _ => .inr ((ih (consSpan_eq_error_iff.1 h)).mono (List.suffix_cons _ r))
  | case16 q opened depth c r hb hq ih =>
    intro hquote
    rcases ih (consSpan_eq_error_iff.1 h) hquote with ⟨rfl, hend⟩ | hr
    · refine .inl ⟨rfl, forall_of_cons (fun hc => (hq hc).elim) fun u v hr => ?_⟩
      exact (Text.escapes_cons hb u).2 (hend u v hr)
    · exact .inr (hr.mono (List.suffix_cons c r))
  | case17 q opened depth c r ih =>
    intro hquote
    rcases ih (consSpan_eq_error_iff.1 h) hquote with ⟨rfl, hend⟩ | hr
    · refine .inl ⟨rfl, forall_of_cons (fun _ => rfl) fun u v hr => ?_⟩
      exact (Text.escapes_pair c u).2 (hend u v hr)
    · exact .inr (hr.mono (List.suffix_cons c r))
  | case18 opened depth r ih =>
    have hr := ih (consSpan_eq_error_iff.1 (consSpan_eq_error_iff.1 h))
    exact .inr (hr.mono ⟨['*', '/'], rfl⟩)
  | case19 opened depth c r hend ih =>
    rcases ih (consSpan_eq_error_iff.1 h) with ⟨rfl, hnone⟩ | hr
    · exact .inl ⟨rfl, not_infix_cons hend hnone⟩
    · exact .inr (hr.mono (List.suffix_cons c r))

theorem not_isPrefix_of_atName? {t name : Text} (h : atName? t = none) (hname : IsName name) :
    ¬ name <+: t := by
  rintro ⟨x, rfl⟩
  obtain ⟨c, r, hform, hc, -⟩ := hname
  have hhyphen : c ≠ '-' := by
    rintro rfl
    cases hc
  rcases hform with rfl | rfl
  · rw [List.cons_append, atName?, if_pos hc] at h
    · cases h
    · rintro c' r' rfl
      exact absurd rfl hhyphen
  · rw [List.cons_append, List.cons_append, atName?, if_pos hc] at h
    cases h

/-- The mistake of an item shows from its place on. -/
theorem shownIn_of_itemAfter {before s : Text} {f : SheetFault} (hs : Text.Clear isTrivia s)
    (h : itemAfter before s = .error f) : f.ShownIn s := by
  unfold itemAfter at h
  split at h
  · cases h
  · cases h
  · rename_i r
    split at h
    · rename_i hb
      cases h
      exact ⟨List.suffix_refl _, fun _ => ⟨r, rfl, commentBody?_eq_none_iff.1 hb⟩⟩
    · cases h
  · rename_i r
    split at h
    · rename_i hn
      cases h
      exact ⟨List.suffix_refl _, fun _ => ⟨r, rfl, fun name => not_isPrefix_of_atName? hn⟩⟩
    · rename_i name x hn
      split at h
      · rename_i hspan
        cases h
        have hx : x <:+ r := ⟨name, atName?_append hn⟩
        exact SheetFault.ShownIn.mono (fails_of_spanFrom hspan) (hx.trans (List.suffix_cons _ r))
      · cases h
  · rename_i hnil hclose hcomment hat
    split at h
    · rename_i hspan
      cases h
      exact fails_of_spanFrom hspan
    · rename_i raw stop hspan
      unfold plainItem at h
      split at h
      · cases h
      · split at h
        · cases h
          refine ⟨List.suffix_refl _, fun _ => ?_⟩
          obtain ⟨c, t, rfl⟩ := List.exists_cons_of_ne_nil hnil
          have hc : isGap c = false ∧ (c == ';') = false := by
            simpa [isTrivia] using Text.clear_cons.1 hs
          refine ⟨c, t, rfl, hc.1, by simpa using hc.2, ?_, ?_, ?_⟩
          · rintro rfl
            exact hclose t rfl
          · rintro rfl
            exact hat t rfl
          · rintro ⟨x, hx⟩
            exact hcomment x hx.symm
        · simp only at h
          split at h <;> cases h

theorem shownIn_of_item {s : Text} {f : SheetFault} (h : item s = .error f) : f.ShownIn s := by
  have hshown := shownIn_of_itemAfter (Text.clear_trimStart isTrivia s) h
  exact hshown.mono ⟨Text.leading isTrivia s, Text.leading_append_trimStart isTrivia s⟩

/-- A state of the reading: the nodes in front of each open block, and those in the innermost one,
are what was read of the text. -/
inductive Reading (source : Text) : List OpenBlock → List Node → Text → Prop
  | top {done : List Node} {s : Text} (nodes : Reads source (Node.itemsOf done.reverse) s) :
    Reading source [] done s
  | inside {o : OpenBlock} {stack : List OpenBlock} {done : List Node} {x s : Text}
    (outer : Reading source stack o.siblings x)
    (opening : item x = .ok (.opening o.before o.head, o.inner))
    (nodes : Reads o.inner (Node.itemsOf done.reverse) s) : Reading source (o :: stack) done s

namespace Reading

variable {source s r : Text} {stack : List OpenBlock} {done : List Node} {n : Node}

theorem isSuffix (h : Reading source stack done s) : s <:+ source := by
  induction h with
  | top nodes => exact ⟨_, nodes.append⟩
  | inside outer opening nodes ih =>
    have hinner := item_text opening
    exact (List.IsSuffix.trans ⟨_, nodes.append⟩ ⟨_, hinner⟩).trans ih

/-- Another node is read in the innermost block. -/
theorem add (h : Reading source stack done s) (hn : Reads s n.items r) :
    Reading source stack (n :: done) r := by
  have hmore : ∀ {x}, Reads x (Node.itemsOf done.reverse) s →
      Reads x (Node.itemsOf (n :: done).reverse) r := fun hx => by
    rw [List.reverse_cons, Node.itemsOf_append, Node.itemsOf_cons, Node.itemsOf_nil,
      List.append_nil]
    exact hx.trans hn
  cases h with
  | top nodes => exact .top (hmore nodes)
  | inside outer opening nodes => exact .inside outer opening (hmore nodes)

/-- The innermost block is closed and becomes a node of the next one. -/
theorem close {o : OpenBlock} {after : Text} (h : Reading source (o :: stack) done s)
    (hs : item s = .ok (.closing after, r)) :
    Reading source stack (.block o.before o.head done.reverse after :: o.siblings) r := by
  cases h with
  | inside outer opening nodes =>
    refine outer.add ?_
    rw [Node.items_block]
    exact .cons opening (nodes.trans (.cons hs (.nil r)))

/-- Every mistake shows in the text in front of its place and from there on. -/
theorem exists_shows {f : SheetFault} (h : Reading source stack done s)
    (hread : readNodes stack done s = .error f) :
    ∃ front, source = front ++ f.rest ∧ f.mistake.Shows front f.rest := by
  fun_induction readNodes stack done s with
  | case1 stack done s e hi =>
    cases hread
    obtain ⟨hsuffix, hshows⟩ := shownIn_of_item hi
    obtain ⟨front, hfront⟩ := hsuffix.trans h.isSuffix
    exact ⟨front, hfront.symm, hshows front⟩
  | case2 stack done s n r hi ih =>
    refine ih (h.add ?_) hread
    rw [items_of_item hi]
    exact .cons hi (.nil r)
  | case3 stack done s before head r hi ih => exact ih (.inside h hi (.nil r)) hread
  | case4 done s before r hi =>
    cases hread
    cases h with
    | top nodes =>
      -- what stands in front of the brace was read as nodes in no block
      obtain ⟨x, hx, hreads⟩ := Reads.cut (nodes.trans (.cons hi (.nil r))) Node.takesText_of_mem
      refine ⟨x, hx, r, ⟨done.reverse, before, none⟩, rfl, parse_eq_ok_iff.2 ⟨rfl, hreads⟩⟩
  | case5 done s before r hi o stack ih =>
    rw [List.unattach_reverse, List.unattach_attach] at ih
    exact ih (h.close hi) hread
  | case6 => cases hread
  | case7 done s before r hi o stack =>
    cases hread
    cases h with
    | inside outer opening nodes =>
      have hfinish : item s = .ok (.finish before, []) := rest_of_item_finish hi ▸ hi
      have hinner : Reads o.inner (Sheet.mk done.reverse before none).items [] :=
        nodes.trans (.cons hfinish (.nil []))
      obtain ⟨front, hfront⟩ := outer.isSuffix
      refine ⟨front ++ (o.before ++ o.head.text), ?_, o.inner, ⟨done.reverse, before, none⟩, rfl,
        parse_eq_ok_iff.2 ⟨rfl, hinner⟩⟩
      rw [← hfront, ← item_text opening]
      simp [Item.text]

end Reading

theorem Sheet.exists_shows_of_parse {source : Text} {origin : Option Text} {f : SheetFault}
    (h : Sheet.parse source origin = .error f) :
    ∃ front, source = front ++ f.rest ∧ f.mistake.Shows front f.rest := by
  unfold Sheet.parse at h
  split at h
  · cases h
  · rename_i hread
    cases h
    have hstart : Reading source [] [] source := .top (Reads.nil source)
    exact hstart.exists_shows hread

/-- The place of a mistake is behind what stands in front of it. -/
theorem SheetFault.index_eq {f : SheetFault} {source front : Text} (h : source = front ++ f.rest) :
    f.index source = front.length := by simp [index, h]

/-- There is something at the place of a mistake. -/
theorem Mistake.Shows.ne_nil {m : Mistake} {front rest : Text} (h : m.Shows front rest) :
    rest ≠ [] := by
  cases m with
  | unclosedString =>
    obtain ⟨q, t, -, rfl, -⟩ := h
    simp
  | unclosedComment =>
    obtain ⟨t, rfl, -⟩ := h
    simp
  | unclosedBlock =>
    obtain ⟨t, u, rfl, -⟩ := h
    simp
  | unexpectedBrace =>
    obtain ⟨t, u, rfl, -⟩ := h
    simp
  | namelessAtRule =>
    obtain ⟨t, rfl, -⟩ := h
    simp
  | unknownWord =>
    obtain ⟨c, t, rfl, -⟩ := h
    simp

/-- The column counts from the last line feed in front of the place, or from the start. -/
theorem exists_line_of_columnAt (source : Text) (i : Nat) :
    ∃ above line, source.take i = above ++ line ∧ '\n' ∉ line ∧
      (above = [] ∨ above.getLast? = some '\n') ∧ columnAt source i = line.length + 1 := by
  have hsplit := List.takeWhile_append_dropWhile (p := (· ≠ '\n')) (l := (source.take i).reverse)
  refine ⟨((source.take i).reverse.dropWhile (· ≠ '\n')).reverse,
    ((source.take i).reverse.takeWhile (· ≠ '\n')).reverse, ?_, ?_, ?_, ?_⟩
  · rw [← List.reverse_append, hsplit, List.reverse_reverse]
  · intro hmem
    have hne := Text.all_leading (· ≠ '\n') _ '\n' (List.mem_reverse.1 hmem)
    simp at hne
  · cases hd : (source.take i).reverse.dropWhile (· ≠ '\n') with
    | nil => exact .inl rfl
    | cons c r =>
      right
      have hc := List.head?_dropWhile_not (· ≠ '\n') (source.take i).reverse
      rw [hd] at hc
      simpa using hc
  · simp [columnAt]

/-- A text that is refused is refused with the line and the column of a place in it. The line counts
the line feeds in front of the place, the column the characters from the start of its line, and the
mistake shows in what stands in front of the place and from there on. -/
theorem parse_reports_place {source : Text} {origin : Option Text} {f : SheetFault}
    (h : Sheet.parse source origin = .error f) :
    ∃ (i : Nat) (above line : Text), i < source.length ∧ source.take i = above ++ line ∧
      '\n' ∉ line ∧ (above = [] ∨ above.getLast? = some '\n') ∧
      Fault.ofSheet source f = .sheet f.mistake.message.toList
        (some ((1 + (source.take i).count '\n' : Nat) : Int))
        (some ((i - above.length + 1 : Nat) : Int)) ∧
      f.mistake.Shows (source.take i) (source.drop i) := by
  obtain ⟨front, hsource, hshows⟩ := Sheet.exists_shows_of_parse h
  have hrest := List.length_pos_iff.2 hshows.ne_nil
  have hlength : source.length = front.length + f.rest.length := by
    rw [← List.length_append, ← hsource]
  have hindex : f.index source = front.length := SheetFault.index_eq hsource
  have htake : source.take front.length = front := by rw [hsource, List.take_left]
  have hdrop : source.drop front.length = f.rest := by rw [hsource, List.drop_left]
  obtain ⟨above, line, hline, hfeed, habove, hcolumn⟩ :=
    exists_line_of_columnAt source front.length
  have hcount : front.length - above.length = line.length := by
    rw [htake] at hline
    rw [hline, List.length_append]
    omega
  refine ⟨front.length, above, line, by omega, hline, hfeed, habove, ?_, ?_⟩
  · rw [Fault.ofSheet, hindex, hcolumn, lineAt, hcount, Nat.add_comm]
  · rw [htake, hdrop]
    exact hshows

/-- A block that is not closed, in the second line. -/
theorem parse_reports_unclosed_block :
    let source := "/**/\na\x7bb:c".toList
    let f : SheetFault := ⟨.unclosedBlock, "\x7bb:c".toList⟩
    Sheet.parse source = .error f ∧
      ∃ (i : Nat) (above line : Text), i < source.length ∧ source.take i = above ++ line ∧
        '\n' ∉ line ∧ (above = [] ∨ above.getLast? = some '\n') ∧
        Fault.ofSheet source f = .sheet f.mistake.message.toList
          (some ((1 + (source.take i).count '\n' : Nat) : Int))
          (some ((i - above.length + 1 : Nat) : Int)) ∧
        f.mistake.Shows (source.take i) (source.drop i) := by
  intro source f
  have h : Sheet.parse source = .error f := by
    rw [Sheet.parse, readNodes_leaf (r := "\na\x7bb:c".toList) rfl,
      readNodes_opening (r := "b:c".toList) rfl, readNodes_leaf (r := []) rfl,
      readNodes_unclosedBlock rfl]
    rfl
  exact ⟨h, parse_reports_place h⟩

end StyleSplice
