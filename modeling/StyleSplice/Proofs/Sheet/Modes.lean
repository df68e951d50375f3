import StyleSplice.Proofs.Sheet.Whole

/-!
# What the span reader is in

The span reader takes each character in a mode, at a depth of brackets. Both depend on the
characters in front of it alone, apart from the two marks of two characters each that begin and end
a comment.
-/

namespace StyleSplice

/-- What a character behind the text is in, and the number of brackets that are open there, for a
reader that takes the text from one such state on. -/
@[simp] def Inside.after : Inside → Nat → Text → Inside × Nat
  | mode, depth, [] => (mode, depth)
  | .plain, depth, '/' :: '*' :: r => after (.comment []) depth r
  | .plain, depth, c :: r =>
    if isQuote c then after (.string c []) depth r
    else if c = '\\' then after .escape depth r
    else if c = '(' ∨ c = '[' then after .plain (depth + 1) r
    else if c = ')' ∨ c = ']' then after .plain (depth - 1) r
    else after .plain depth r
  | .escape, depth, _ :: r => after .plain depth r
  | .string q opened, depth, c :: r =>
    if c = '\\' then after (.stringEscape q opened) depth r
    else if c = q then after .plain depth r
    else after (.string q opened) depth r
  | .stringEscape q opened, depth, _ :: r => after (.string q opened) depth r
  | .comment _, depth, '*' :: '/' :: r => after .plain depth r
  | .comment opened, depth, _ :: r => after (.comment opened) depth r

namespace Inside

variable {mode : Inside} {depth : Nat} {c : Char} {k r s t : Text} {inner : Bool}

theorem after_plain (h : c = '/' → r.head? ≠ some '*') :
    after .plain depth (c :: r) =
      if isQuote c then after (.string c []) depth r
      else if c = '\\' then after .escape depth r
      else if c = '(' ∨ c = '[' then after .plain (depth + 1) r
      else if c = ')' ∨ c = ']' then after .plain (depth - 1) r
      else after .plain depth r := by
  rw [after]
  intro r' hc hr
  subst hc hr
  simp at h

theorem after_comment {opened : Text} (h : c = '*' → r.head? ≠ some '/') :
    after (.comment opened) depth (c :: r) = after (.comment opened) depth r := by
  rw [after]
  intro r' hc hr
  subst hc hr
  simp at h

/-- No mark of two characters lies across the end of the first text. -/
def Seamless (s t : Text) : Prop :=
  (s.getLast? = some '/' → t.head? ≠ some '*') ∧ (s.getLast? = some '*' → t.head? ≠ some '/')

theorem seamless_nil (t : Text) : Seamless [] t := ⟨by simp, by simp⟩

theorem Seamless.of_cons (h : Seamless (c :: s) t) : Seamless s t := by
  cases s with
  | nil => exact seamless_nil t
  | cons d s => simpa [Seamless, List.getLast?_cons_cons] using h

/-- A mark that does not begin in a text and does not lie across its end begins nowhere in it. -/
theorem head?_of_seam {x y : Char} (hseam : (c :: s).getLast? = some x → t.head? ≠ some y)
    (hs : ∀ r, c = x → s = y :: r → False) : c = x → (s ++ t).head? ≠ some y := by
  rintro rfl
  cases s with
  | nil => exact hseam rfl
  | cons d s =>
    rw [List.cons_append, List.head?_cons, ne_eq, Option.some_inj]
    rintro rfl
    exact hs s rfl rfl

theorem Seamless.head?_slash (h : Seamless (c :: s) t) (hs : ∀ r, c = '/' → s = '*' :: r → False) :
    c = '/' → (s ++ t).head? ≠ some '*' :=
  head?_of_seam h.1 hs

theorem Seamless.head?_star (h : Seamless (c :: s) t) (hs : ∀ r, c = '*' → s = '/' :: r → False) :
    c = '*' → (s ++ t).head? ≠ some '/' :=
  head?_of_seam h.2 hs

/-- A reader comes to the second text as the first one has left it. -/
theorem after_append (mode : Inside) (depth : Nat) (h : Seamless s t) :
    after mode depth (s ++ t) = after (after mode depth s).1 (after mode depth s).2 t := by
  fun_induction after mode depth s with
  | case1 => rfl
  | case2 depth r ih => rw [List.cons_append, List.cons_append, after, ih h.of_cons.of_cons]
  | case3 depth c r hcomment hq ih =>
    rw [List.cons_append, after_plain (h.head?_slash hcomment), if_pos hq, ih h.of_cons]
  | case4 depth r hcomment hq ih =>
    rw [List.cons_append, after_plain (by simp), if_neg hq, if_pos rfl, ih h.of_cons]
  | case5 depth c r hcomment hq hb ho ih =>
    rw [List.cons_append, after_plain (h.head?_slash hcomment), if_neg hq, if_neg hb, if_pos ho,
      ih h.of_cons]
  | case6 depth c r hcomment hq hb ho hc ih =>
    rw [List.cons_append, after_plain (h.head?_slash hcomment), if_neg hq, if_neg hb, if_neg ho,
      if_pos hc, ih h.of_cons]
  | case7 depth c r hcomment hq hb ho hc ih =>
    rw [List.cons_append, after_plain (h.head?_slash hcomment), if_neg hq, if_neg hb, if_neg ho,
      if_neg hc, ih h.of_cons]
  | case8 depth c r ih => rw [List.cons_append, after, ih h.of_cons]
  | case9 q opened depth r ih => rw [List.cons_append, after, if_pos rfl, ih h.of_cons]
  | case10 q opened depth r hb ih =>
    rw [List.cons_append, after, if_neg hb, if_pos rfl, ih h.of_cons]
  | case11 q opened depth c r hb hq ih =>
    rw [List.cons_append, after, if_neg hb, if_neg hq, ih h.of_cons]
  | case12 q opened depth c r ih => rw [List.cons_append, after, ih h.of_cons]
  | case13 opened depth r ih =>
    rw [List.cons_append, List.cons_append, after, ih h.of_cons.of_cons]
  | case14 opened depth c r hend ih =>
    rw [List.cons_append, after_comment (h.head?_star hend), ih h.of_cons]

theorem seamless_of_head (hstar : t.head? ≠ some '*') (hslash : t.head? ≠ some '/') :
    Seamless s t := ⟨fun _ => hstar, fun _ => hslash⟩

/-- What a character is in does not depend on the brackets that are open. -/
theorem after_fst (mode : Inside) (d d' : Nat) (s : Text) :
    (after mode d s).1 = (after mode d' s).1 := by
  fun_induction after mode d s generalizing d' <;> grind [after]

/-- The front of a span leads the span reader to the state behind it, whatever comes there in the
place of the rest. -/
theorem spanFrom_front {m m' : Inside} {t' v rest : Text} (hm : m.kind = mode) (hm' : m'.kind = mode)
    (hs : Seamless s t) (hs' : Seamless s t') (h : spanFrom m depth (s ++ t) = .ok (s ++ v, rest)) :
    ∃ n : Inside, n.kind = (after mode depth s).1 ∧
      spanFrom m' depth (s ++ t') = s.foldr consSpan (spanFrom n (after mode depth s).2 t') := by
  have hcons : ∀ {c : Char} {s : Text} {x : Except SheetFault (Text × Text)},
      consSpan c x = .ok (c :: s ++ v, rest) → x = .ok (s ++ v, rest) := by
    intro c s x hx
    obtain ⟨u, hu, rfl⟩ := consSpan_eq_ok_iff.1 hx
    obtain rfl : s ++ v = u := (List.cons_eq_cons.1 hu).2
    rfl
  have hfront : ∀ {c : Char} {s : Text} {x : Except SheetFault (Text × Text)} {k : Inside} {d : Nat},
      (∃ n : Inside, n.kind = k ∧ x = s.foldr consSpan (spanFrom n d t')) →
      ∃ n : Inside, n.kind = k ∧ consSpan c x = (c :: s).foldr consSpan (spanFrom n d t') := by
    rintro c s x k d ⟨n, hn, rfl⟩
    exact ⟨n, hn, rfl⟩
  fun_induction after mode depth s generalizing m m' with
  | case1 => exact ⟨m', hm', rfl⟩
  | case2 depth r ih =>
    cases m <;> cases hm
    cases m' <;> cases hm'
    rw [List.cons_append, List.cons_append, spanFrom] at h ⊢
    exact hfront (hfront (ih rfl rfl hs.of_cons.of_cons hs'.of_cons.of_cons (hcons (hcons h))))
  | case3 depth c r hcomment hq ih =>
    cases m <;> cases hm
    cases m' <;> cases hm'
    rw [List.cons_append, spanFrom_plain (hs.head?_slash hcomment), if_pos hq] at h
    rw [List.cons_append, spanFrom_plain (hs'.head?_slash hcomment), if_pos hq]
    exact hfront (ih rfl rfl hs.of_cons hs'.of_cons (hcons h))
  | case4 depth r hcomment hq ih =>
    cases m <;> cases hm
    cases m' <;> cases hm'
    rw [List.cons_append, spanFrom_plain (by simp), if_neg hq, if_pos rfl] at h ⊢
    exact hfront (ih rfl rfl hs.of_cons hs'.of_cons (hcons h))
  | case5 depth c r hcomment hq hb ho ih =>
    cases m <;> cases hm
    cases m' <;> cases hm'
    rw [List.cons_append, spanFrom_plain (hs.head?_slash hcomment), if_neg hq, if_neg hb,
      if_pos ho] at h
    rw [List.cons_append, spanFrom_plain (hs'.head?_slash hcomment), if_neg hq, if_neg hb, if_pos ho]
    exact hfront (ih rfl rfl hs.of_cons hs'.of_cons (hcons h))
  | case6 depth c r hcomment hq hb ho hc ih =>
    cases m <;> cases hm
    cases m' <;> cases hm'
    rw [List.cons_append, spanFrom_plain (hs.head?_slash hcomment), if_neg hq, if_neg hb,
      if_neg ho, if_pos hc] at h
    rw [List.cons_append, spanFrom_plain (hs'.head?_slash hcomment), if_neg hq, if_neg hb,
      if_neg ho, if_pos hc]
    exact hfront (ih rfl rfl hs.of_cons hs'.of_cons (hcons h))
  | case7 depth c r hcomment hq hb ho hc ih =>
    cases m <;> cases hm
    cases m' <;> cases hm'
    rw [List.cons_append, spanFrom_plain (hs.head?_slash hcomment), if_neg hq, if_neg hb,
      if_neg ho, if_neg hc] at h
    rw [List.cons_append, spanFrom_plain (hs'.head?_slash hcomment), if_neg hq, if_neg hb,
      if_neg ho, if_neg hc]
    -- a span that ends at this character does not reach the end of the front
    split at h
    · cases h
    · rename_i hstop
      rw [if_neg hstop]
      exact hfront (ih rfl rfl hs.of_cons hs'.of_cons (hcons h))
  | case8 depth c r ih =>
    cases m <;> cases hm
    cases m' <;> cases hm'
    rw [List.cons_append, spanFrom] at h ⊢
    exact hfront (ih rfl rfl hs.of_cons hs'.of_cons (hcons h))
  | case9 q opened depth r ih =>
    cases m <;> cases hm
    cases m' <;> cases hm'
    rw [List.cons_append, spanFrom, if_pos rfl] at h ⊢
    exact hfront (ih rfl rfl hs.of_cons hs'.of_cons (hcons h))
  | case10 q opened depth r hb ih =>
    cases m <;> cases hm
    cases m' <;> cases hm'
    rw [List.cons_append, spanFrom, if_neg hb, if_pos rfl] at h ⊢
    exact hfront (ih rfl rfl hs.of_cons hs'.of_cons (hcons h))
  | case11 q opened depth c r hb hq ih =>
    cases m <;> cases hm
    cases m' <;> cases hm'
    rw [List.cons_append, spanFrom, if_neg hb, if_neg hq] at h ⊢
    exact hfront (ih rfl rfl hs.of_cons hs'.of_cons (hcons h))
  | case12 q opened depth c r ih =>
    cases m <;> cases hm
    cases m' <;> cases hm'
    rw [List.cons_append, spanFrom] at h ⊢
    exact hfront (ih rfl rfl hs.of_cons hs'.of_cons (hcons h))
  | case13 opened depth r ih =>
    cases m <;> cases hm
    cases m' <;> cases hm'
    rw [List.cons_append, List.cons_append, spanFrom] at h ⊢
    exact hfront (hfront (ih rfl rfl hs.of_cons.of_cons hs'.of_cons.of_cons (hcons (hcons h))))
  | case14 opened depth c r hend ih =>
    cases m <;> cases hm
    cases m' <;> cases hm'
    rw [List.cons_append, spanFrom_comment (hs.head?_star hend)] at h
    rw [List.cons_append, spanFrom_comment (hs'.head?_star hend)]
    exact hfront (ih rfl rfl hs.of_cons hs'.of_cons (hcons h))

theorem isQuote_iff : isQuote c = true ↔ c = '\x22' ∨ c = '\x27' := by
  simp [isQuote]

/-- In the body of a string the string is not left. -/
theorem after_stringBody_self {q : Char} {opened body : Text} (h : StringBody q body) :
    after (.string q opened) depth body = (.string q opened, depth) := by
  induction h with
  | nil => rfl
  | escaped rest ih => rw [after, if_pos rfl, after, ih]
  | char backslash quote rest ih => rw [after, if_neg backslash, if_neg quote, ih]

/-- A string is left behind its closing quote. -/
theorem after_stringBody {q : Char} {opened body : Text} (hq : isQuote q = true)
    (h : StringBody q body) : after (.string q opened) depth (body ++ q :: k) =
      after .plain depth k := by
  have hmark : q ≠ '\\' ∧ q ≠ '*' ∧ q ≠ '/' := by
    rcases isQuote_iff.1 hq with rfl | rfl <;> decide
  rw [after_append _ _ (seamless_of_head (by simp [hmark]) (by simp [hmark])),
    after_stringBody_self h, after, if_neg hmark.1, if_pos rfl]

/-- A comment is left behind its end. -/
theorem after_commentBody {opened body : Text} (h : ¬ ['*', '/'] <:+: body) :
    after (.comment opened) depth (body ++ '*' :: '/' :: k) = after .plain depth k := by
  induction body with
  | nil => rw [List.nil_append, after]
  | cons c body ih =>
    rw [List.infix_cons_iff, not_or] at h
    rw [List.cons_append, after_comment, ih h.2]
    rintro rfl hslash
    cases body with
    | nil => cases hslash
    | cons d body =>
      obtain rfl : d = '/' := by simpa using hslash
      exact h.1 ⟨body, rfl⟩

/-- A text of whole tokens is left as it was entered. A star could make a comment of a slash at its
end. -/
theorem after_whole (h : Whole inner s) (hstar : k.head? ≠ some '*') :
    after .plain depth (s ++ k) = after .plain depth k := by
  have hstar' : ∀ {c : Char}, (c = ')' ∨ c = ']') → ∀ t : Text, (c :: t).head? ≠ some '*' := by
    rintro c hc t ⟨⟩
    revert hc
    decide
  induction h generalizing depth k with
  | nil => rfl
  | char single allowed comment rest ih =>
    obtain ⟨hquote, hbackslash, hopened, hclosed⟩ := isSingle_iff.1 single
    rw [List.cons_append, after_plain fun hc => head?_append_ne hstar (comment hc),
      if_neg (by simp [hquote]), if_neg hbackslash, if_neg hopened, if_neg hclosed, ih hstar]
  | escape allowed rest ih =>
    rw [List.cons_append, List.cons_append, after_plain (by simp), if_neg (by decide), if_pos rfl,
      after, ih hstar]
  | comment ending allowed rest ih =>
    rw [List.cons_append, List.cons_append, after, List.append_assoc, List.cons_append,
      List.cons_append, after_commentBody ending, ih hstar]
  | string quote closed allowed rest ih =>
    rw [List.cons_append, after_plain, if_pos quote, List.append_assoc, List.cons_append,
      after_stringBody quote closed, ih hstar]
    rintro rfl
    cases quote
  | @bracketed _ o c u t opening closing allowed within rest ihu ih =>
    have ho := openBracket_plain opening
    have hc := closeBracket_plain closing
    rw [List.cons_append, after_plain fun h => absurd h ho.2.2, if_neg (by simp [ho.1]),
      if_neg ho.2.1, if_pos opening, List.append_assoc, List.cons_append, ihu (hstar' closing _),
      after_plain fun h => absurd h hc.2.2.1, if_neg (by simp [hc.1]), if_neg hc.2.1,
      if_neg hc.2.2.2, if_pos closing, Nat.add_sub_cancel, ih hstar]

end Inside

end StyleSplice
