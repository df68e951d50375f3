import Mathlib.Control.Monad.Basic
import StyleSplice.Proofs.Sheet.Gaps

/-!
# Closed texts

A text is closed if nothing in it is left open at its end and no stop character stands outside
strings, comments, escapes and brackets. A span that a stop character ends is such a text, and what
comes after that character makes no difference to the span. The same holds of the other readers:
what they take is taken again in front of any other text.
-/

namespace StyleSplice

/-- What a character is in, without the place where that was opened. -/
def Inside.kind : Inside → Inside
  | .string q _ => .string q []
  | .stringEscape q _ => .stringEscape q []
  | .comment _ => .comment []
  | m => m

/-- A text that starts inside something, at a depth of brackets, and after which a stop character
ends the span. -/
inductive Closes : Inside → Nat → Text → Prop
  | done : Closes .plain 0 []
  | openComment {depth : Nat} {t : Text} (rest : Closes (.comment []) depth t) :
    Closes .plain depth ('/' :: '*' :: t)
  | openString {depth : Nat} {t : Text} {c : Char} (quote : isQuote c = true)
    (rest : Closes (.string c []) depth t) : Closes .plain depth (c :: t)
  | backslash {depth : Nat} {t : Text} (rest : Closes .escape depth t) :
    Closes .plain depth ('\\' :: t)
  | openBracket {depth : Nat} {t : Text} {c : Char} (bracket : c = '(' ∨ c = '[')
    (rest : Closes .plain (depth + 1) t) : Closes .plain depth (c :: t)
  | closeBracket {depth : Nat} {t : Text} {c : Char} (bracket : c = ')' ∨ c = ']')
    (rest : Closes .plain (depth - 1) t) : Closes .plain depth (c :: t)
  | char {depth : Nat} {t : Text} {c : Char} (quote : isQuote c = false) (backslash : c ≠ '\\')
    (opened : ¬ (c = '(' ∨ c = '[')) (closed : ¬ (c = ')' ∨ c = ']'))
    (stop : ¬ (depth = 0 ∧ isStop c = true)) (comment : c = '/' → t.head? ≠ some '*')
    (rest : Closes .plain depth t) : Closes .plain depth (c :: t)
  | escaped {depth : Nat} {t : Text} {c : Char} (rest : Closes .plain depth t) :
    Closes .escape depth (c :: t)
  | stringBackslash {depth : Nat} {t : Text} {q : Char}
    (rest : Closes (.stringEscape q []) depth t) : Closes (.string q []) depth ('\\' :: t)
  | closeString {depth : Nat} {t : Text} {q : Char} (backslash : q ≠ '\\')
    (rest : Closes .plain depth t) : Closes (.string q []) depth (q :: t)
  | stringChar {depth : Nat} {t : Text} {q c : Char} (backslash : c ≠ '\\') (quote : c ≠ q)
    (rest : Closes (.string q []) depth t) : Closes (.string q []) depth (c :: t)
  | stringEscaped {depth : Nat} {t : Text} {q c : Char} (rest : Closes (.string q []) depth t) :
    Closes (.stringEscape q []) depth (c :: t)
  | closeComment {depth : Nat} {t : Text} (rest : Closes .plain depth t) :
    Closes (.comment []) depth ('*' :: '/' :: t)
  | commentChar {depth : Nat} {t : Text} {c : Char} (ending : c = '*' → t.head? ≠ some '/')
    (rest : Closes (.comment []) depth t) : Closes (.comment []) depth (c :: t)

/-- A text that a stop character ends. -/
def Closed (t : Text) : Prop := Closes .plain 0 t

theorem spanFrom_plain {depth : Nat} {c : Char} {r : Text} (h : c = '/' → r.head? ≠ some '*') :
    spanFrom .plain depth (c :: r) =
      if isQuote c then consSpan c (spanFrom (.string c (c :: r)) depth r)
      else if c = '\\' then consSpan c (spanFrom .escape depth r)
      else if c = '(' ∨ c = '[' then consSpan c (spanFrom .plain (depth + 1) r)
      else if c = ')' ∨ c = ']' then consSpan c (spanFrom .plain (depth - 1) r)
      else if depth = 0 ∧ isStop c then .ok ([], c :: r)
      else consSpan c (spanFrom .plain depth r) := by
  rw [spanFrom]
  intro r' hc hr
  subst hc hr
  simp at h

theorem spanFrom_comment {depth : Nat} {c : Char} {opened r : Text}
    (h : c = '*' → r.head? ≠ some '/') :
    spanFrom (.comment opened) depth (c :: r) =
      consSpan c (spanFrom (.comment opened) depth r) := by
  rw [spanFrom]
  intro r' hc hr
  subst hc hr
  simp at h

/-- A bracket is neither a quote nor a backslash, and begins no comment. -/
theorem openBracket_plain {c : Char} (h : c = '(' ∨ c = '[') :
    isQuote c = false ∧ c ≠ '\\' ∧ c ≠ '/' := by
  rcases h with rfl | rfl <;> decide

theorem closeBracket_plain {c : Char} (h : c = ')' ∨ c = ']') :
    isQuote c = false ∧ c ≠ '\\' ∧ c ≠ '/' ∧ ¬ (c = '(' ∨ c = '[') := by
  rcases h with rfl | rfl <;> decide

/-- The rest of a span is empty or starts with a stop character. -/
theorem clear_of_spanFrom {mode : Inside} {depth : Nat} {s t r : Text}
    (h : spanFrom mode depth s = .ok (t, r)) : Text.Clear (fun c => !isStop c) r := by
  fun_induction spanFrom mode depth s generalizing t r <;> grind [Text.Clear]

theorem closes_of_spanFrom {mode : Inside} {depth : Nat} {s t k : Text} {c : Char}
    (h : spanFrom mode depth s = .ok (t, c :: k)) : Closes mode.kind depth t := by
  have hfront : ∀ {m : Inside} {n : Nat} {r u : Text} {x : Char},
      spanFrom m n r = .ok (u, c :: k) → (∀ r', r ≠ x :: r') → u.head? ≠ some x := by
    intro m n r u x hu hr hx
    obtain ⟨u', rfl⟩ := List.head?_eq_some_iff.1 hx
    exact hr _ (spanFrom_append hu).symm
  fun_induction spanFrom mode depth s generalizing t with
  | case1 => cases h
  | case2 => cases h
  | case3 => cases h
  | case4 => cases h
  | case5 => cases h
  | case6 depth r ih =>
    obtain ⟨u, rfl, hu⟩ := consSpan_eq_ok_iff.1 h
    obtain ⟨v, rfl, hv⟩ := consSpan_eq_ok_iff.1 hu
    exact .openComment (ih hv)
  | case7 depth c' r hcomment hq ih =>
    obtain ⟨u, rfl, hu⟩ := consSpan_eq_ok_iff.1 h
    exact .openString hq (ih hu)
  | case8 depth r hcomment hq ih =>
    obtain ⟨u, rfl, hu⟩ := consSpan_eq_ok_iff.1 h
    exact .backslash (ih hu)
  | case9 depth c' r hcomment hq hb ho ih =>
    obtain ⟨u, rfl, hu⟩ := consSpan_eq_ok_iff.1 h
    exact .openBracket ho (ih hu)
  | case10 depth c' r hcomment hq hb ho hc ih =>
    obtain ⟨u, rfl, hu⟩ := consSpan_eq_ok_iff.1 h
    exact .closeBracket hc (ih hu)
  | case11 depth c' r hcomment hq hb ho hc hstop =>
    cases h
    rw [hstop.1]
    exact .done
  | case12 depth c' r hcomment hq hb ho hc hstop ih =>
    obtain ⟨u, rfl, hu⟩ := consSpan_eq_ok_iff.1 h
    exact .char (by simpa using hq) hb ho hc hstop
      (fun hc' => hfront hu fun r' hr => hcomment r' hc' hr) (ih hu)
  | case13 depth c' r ih =>
    obtain ⟨u, rfl, hu⟩ := consSpan_eq_ok_iff.1 h
    exact .escaped (ih hu)
  | case14 q opened depth r ih =>
    obtain ⟨u, rfl, hu⟩ := consSpan_eq_ok_iff.1 h
    exact .stringBackslash (ih hu)
  | case15 q opened depth r hb ih =>
    obtain ⟨u, rfl, hu⟩ := consSpan_eq_ok_iff.1 h
    exact .closeString hb (ih hu)
  | case16 q opened depth c' r hb hq ih =>
    obtain ⟨u, rfl, hu⟩ := consSpan_eq_ok_iff.1 h
    exact .stringChar hb hq (ih hu)
  | case17 q opened depth c' r ih =>
    obtain ⟨u, rfl, hu⟩ := consSpan_eq_ok_iff.1 h
    exact .stringEscaped (ih hu)
  | case18 opened depth r ih =>
    obtain ⟨u, rfl, hu⟩ := consSpan_eq_ok_iff.1 h
    obtain ⟨v, rfl, hv⟩ := consSpan_eq_ok_iff.1 hu
    exact .closeComment (ih hv)
  | case19 opened depth c' r hend ih =>
    obtain ⟨u, rfl, hu⟩ := consSpan_eq_ok_iff.1 h
    exact .commentChar (fun hc' => hfront hu fun r' hr => hend r' hc' hr) (ih hu)

/-- A stop character is no other character with a meaning. -/
theorem isStop_iff {c : Char} : isStop c = true ↔ c = ';' ∨ c = '{' ∨ c = '}' := by
  simp [isStop, or_assoc]

theorem head?_append_ne {t k : Text} {x : Char} (hk : k.head? ≠ some x) (ht : t.head? ≠ some x) :
    (t ++ k).head? ≠ some x := by
  cases t with
  | nil => exact hk
  | cons a t => simpa using ht

/-- Characters in front of a span. -/
theorem foldr_consSpan (t u r : Text) : t.foldr consSpan (.ok (u, r)) = .ok (t ++ u, r) := by
  induction t with
  | nil => rfl
  | cons c t ih => rw [List.foldr_cons, ih, consSpan, List.cons_append]

/-- After a text that closes, the span goes on as if it began there. A star could make a comment of a
slash at the end of the text. -/
theorem Closes.spanFrom_append {m mode : Inside} {depth : Nat} {t : Text} (h : Closes m depth t)
    (hm : mode.kind = m) {k : Text} (hstar : k.head? ≠ some '*') (hslash : k.head? ≠ some '/') :
    spanFrom mode depth (t ++ k) = t.foldr consSpan (span k) := by
  induction h generalizing mode with
  | done =>
    cases mode <;> cases hm
    rfl
  | openComment rest ih =>
    cases mode <;> cases hm
    rw [List.cons_append, List.cons_append, spanFrom, ih rfl]
    rfl
  | openString quote rest ih =>
    cases mode <;> cases hm
    rw [List.cons_append, spanFrom_plain, if_pos quote, ih rfl]
    · rfl
    · rintro rfl
      cases quote
  | backslash rest ih =>
    cases mode <;> cases hm
    rw [List.cons_append, spanFrom_plain (by simp), if_neg (by decide), if_pos rfl, ih rfl]
    rfl
  | openBracket bracket rest ih =>
    cases mode <;> cases hm
    obtain ⟨hquote, hbackslash, hslash⟩ := openBracket_plain bracket
    rw [List.cons_append, spanFrom_plain (absurd · hslash), if_neg (by simp [hquote]),
      if_neg hbackslash, if_pos bracket, ih rfl]
    rfl
  | closeBracket bracket rest ih =>
    cases mode <;> cases hm
    obtain ⟨hquote, hbackslash, hslash, hopen⟩ := closeBracket_plain bracket
    rw [List.cons_append, spanFrom_plain (absurd · hslash), if_neg (by simp [hquote]),
      if_neg hbackslash, if_neg hopen, if_pos bracket, ih rfl]
    rfl
  | char quote backslash opened closed stop comment rest ih =>
    cases mode <;> cases hm
    rw [List.cons_append, spanFrom_plain (fun h => head?_append_ne hstar (comment h)),
      if_neg (by simp [quote]), if_neg backslash, if_neg opened, if_neg closed, if_neg stop,
      ih rfl]
    rfl
  | escaped rest ih =>
    cases mode <;> cases hm
    rw [List.cons_append, spanFrom, ih rfl]
    rfl
  | stringBackslash rest ih =>
    cases mode <;> cases hm
    rw [List.cons_append, spanFrom, if_pos rfl, ih rfl]
    rfl
  | closeString backslash rest ih =>
    cases mode <;> cases hm
    rw [List.cons_append, spanFrom, if_neg backslash, if_pos rfl, ih rfl]
    rfl
  | stringChar backslash quote rest ih =>
    cases mode <;> cases hm
    rw [List.cons_append, spanFrom, if_neg backslash, if_neg quote, ih rfl]
    rfl
  | stringEscaped rest ih =>
    cases mode <;> cases hm
    rw [List.cons_append, spanFrom, ih rfl]
    rfl
  | closeComment rest ih =>
    cases mode <;> cases hm
    rw [List.cons_append, List.cons_append, spanFrom, ih rfl]
    rfl
  | commentChar ending rest ih =>
    cases mode <;> cases hm
    rw [List.cons_append, spanFrom_comment (fun h => head?_append_ne hslash (ending h)), ih rfl]
    rfl

theorem span_of_isStop {c : Char} (hc : isStop c = true) (k : Text) :
    span (c :: k) = .ok ([], c :: k) := by
  rcases isStop_iff.1 hc with rfl | rfl | rfl <;> rw [span, spanFrom_plain (by simp)] <;> rfl

theorem Closes.spanFrom_eq {m mode : Inside} {depth : Nat} {t : Text} (h : Closes m depth t)
    (hm : mode.kind = m) {c : Char} (hc : isStop c = true) (k : Text) :
    spanFrom mode depth (t ++ c :: k) = .ok (t, c :: k) := by
  have hne : ∀ x, isStop x = false → (c :: k).head? ≠ some x := by
    rintro x hx ⟨⟩
    simp [hc] at hx
  rw [h.spanFrom_append hm (hne '*' (by decide)) (hne '/' (by decide)), span_of_isStop hc,
    foldr_consSpan, List.append_nil]

theorem closed_of_span {s t k : Text} {c : Char} (h : span s = .ok (t, c :: k)) : Closed t :=
  closes_of_spanFrom h

/-- A span ends at a stop character if and only if the text before it is closed. -/
theorem span_eq_ok_stop_iff {t k : Text} {c : Char} (hc : isStop c = true) :
    span (t ++ c :: k) = .ok (t, c :: k) ↔ Closed t :=
  ⟨closed_of_span, fun h => Closes.spanFrom_eq h rfl hc k⟩

instance (t : Text) : Decidable (Closed t) :=
  decidable_of_iff (span (t ++ [';']) = .ok (t, [';'])) (span_eq_ok_stop_iff (by decide))

/-- White space is no end of a span. -/
theorem span_of_all_isGap {g : Text} (hg : Text.All isGap g) (r : Text) :
    span (g ++ r) = g.foldr consSpan (span r) := by
  induction g with
  | nil => rfl
  | cons c g ih =>
    obtain ⟨hc, hg⟩ := Text.all_cons.1 hg
    have hplain : span (c :: (g ++ r)) = consSpan c (span (g ++ r)) := by
      simp only [isGap, Bool.or_eq_true, beq_iff_eq, or_assoc] at hc
      rcases hc with rfl | rfl | rfl | rfl | rfl | rfl <;>
        rw [span, spanFrom_plain (by simp)] <;> rfl
    rw [List.cons_append, hplain, ih hg, List.foldr_cons]

/-- A closed text and white space after it end where a block or the text ends. -/
theorem Closed.span_append {t g r : Text} (h : Closed t) (hg : Text.All isGap g)
    (hr : r = [] ∨ r.head? = some '}') : span (t ++ (g ++ r)) = .ok (t ++ g, r) := by
  have hend : span r = .ok ([], r) := by
    rcases hr with rfl | hr
    · rfl
    · obtain ⟨r', rfl⟩ := List.head?_eq_some_iff.1 hr
      exact span_of_isStop (by decide) r'
  have hne : ∀ x, isGap x = false → x ≠ '}' → (g ++ r).head? ≠ some x := by
    intro x hx hbrace
    have hrx : r.head? ≠ some x := by
      rcases hr with rfl | hr
      · simp
      · simpa [hr] using hbrace.symm
    refine head?_append_ne hrx fun hgx => ?_
    have hgap := hg x (List.mem_of_mem_head? hgx)
    simp [hx] at hgap
  rw [span, h.spanFrom_append rfl (hne '*' (by decide) (by decide))
    (hne '/' (by decide) (by decide)), span_of_all_isGap hg, hend, ← List.foldr_append,
    foldr_consSpan, List.append_nil]

/-- The first colon stays the first one in front of any other text. -/
theorem cutColon_append_colon {quote : Option Char} {commented : Bool} {s front back : Text}
    (h : cutColon quote commented s = some (front, back)) (x : Text) :
    cutColon quote commented (front ++ ':' :: x) = some (front, x) := by
  have hfront : ∀ {q : Option Char} {m : Bool} {r u r' : Text} {a : Char},
      cutColon q m r = some (u, back) → (∀ r', r ≠ a :: r') → a ≠ ':' → u ++ ':' :: x ≠ a :: r' := by
    intro q m r u r' a hu hr ha hx
    cases u with
    | nil => exact ha (List.cons_eq_cons.1 hx).1.symm
    | cons b u =>
      rw [List.cons_append] at hx
      obtain ⟨rfl, -⟩ := List.cons_eq_cons.1 hx
      exact hr _ (cutColon_append hu).symm
  fun_induction cutColon quote commented s generalizing front with
  | case1 => cases h
  | case2 commented q r ih =>
    obtain ⟨u, rfl, hu⟩ := Text.consPart_eq_some_iff.1 h
    rw [List.cons_append, cutColon, if_pos rfl, ih hu]
    rfl
  | case3 q commented c r hc ih =>
    obtain ⟨u, rfl, hu⟩ := Text.consPart_eq_some_iff.1 h
    rw [List.cons_append, cutColon, if_neg hc, ih hu]
    rfl
  | case4 r ih =>
    obtain ⟨u, rfl, hu⟩ := Text.consPart_eq_some_iff.1 h
    obtain ⟨v, rfl, hv⟩ := Text.consPart_eq_some_iff.1 hu
    rw [List.cons_append, List.cons_append, cutColon, ih hv]
    rfl
  | case5 c r hend ih =>
    obtain ⟨u, rfl, hu⟩ := Text.consPart_eq_some_iff.1 h
    rw [List.cons_append, cutColon, ih hu]
    · rfl
    · exact fun r' hc => hfront hu (fun r' hr => hend r' hc hr) (by decide)
  | case6 r ih =>
    obtain ⟨u, rfl, hu⟩ := Text.consPart_eq_some_iff.1 h
    obtain ⟨v, rfl, hv⟩ := Text.consPart_eq_some_iff.1 hu
    rw [List.cons_append, List.cons_append, cutColon, ih hv]
    rfl
  | case7 c r hstart hq ih =>
    obtain ⟨u, rfl, hu⟩ := Text.consPart_eq_some_iff.1 h
    rw [List.cons_append, cutColon, if_pos hq, ih hu]
    · rfl
    · exact fun r' hc => hfront hu (fun r' hr => hstart r' hc hr) (by decide)
  | case8 r hstart hq =>
    cases h
    rw [List.nil_append, cutColon] <;> simp [isQuote]
  | case9 c r hstart hq hc ih =>
    obtain ⟨u, rfl, hu⟩ := Text.consPart_eq_some_iff.1 h
    rw [List.cons_append, cutColon, if_neg hq, if_neg hc, ih hu]
    · rfl
    · exact fun r' hc => hfront hu (fun r' hr => hstart r' hc hr) (by decide)

theorem commentBody?_append_end {s body r : Text} (h : commentBody? s = some (body, r)) (x : Text) :
    commentBody? (body ++ '*' :: '/' :: x) = some (body, x) := by
  fun_induction commentBody? s generalizing body with
  | case1 => cases h
  | case2 r => cases h; rfl
  | case3 c s hend ih => 
    obtain ⟨⟨b, r'⟩, hb, hx⟩ := Option.map_eq_some_iff.1 h
    cases hx
    rw [List.cons_append, commentBody?, ih hb]
    · rfl
    · intro r'' hc hx
      cases b with
      | nil => cases hx
      | cons a b =>
        rw [List.cons_append] at hx
        obtain ⟨rfl, -⟩ := List.cons_eq_cons.1 hx
        exact hend _ hc (commentBody?_append hb).symm

/-- A character in front begins the end of a comment only if it is a star before a slash. -/
theorem not_infix_cons {c : Char} {s : Text} (hend : ∀ r, c = '*' → s = '/' :: r → False)
    (h : ¬ ['*', '/'] <:+: s) : ¬ ['*', '/'] <:+: c :: s := by
  rw [List.infix_cons_iff, not_or]
  refine ⟨?_, h⟩
  rintro ⟨x, hx⟩
  obtain ⟨rfl, rfl⟩ := List.cons_eq_cons.1 hx
  exact hend x rfl rfl

/-- The body of a comment runs up to the first end of a comment. -/
theorem commentBody?_eq_some_iff {s body r : Text} :
    commentBody? s = some (body, r) ↔ s = body ++ '*' :: '/' :: r ∧ ¬ ['*', '/'] <:+: body := by
  constructor
  · intro h
    refine ⟨(commentBody?_append h).symm, ?_⟩
    fun_induction commentBody? s generalizing body with
    | case1 => cases h
    | case2 r => cases h; decide
    | case3 c s hend ih =>
      obtain ⟨⟨b, r'⟩, hb, hx⟩ := Option.map_eq_some_iff.1 h
      cases hx
      refine not_infix_cons (fun x hc hx => ?_) (ih hb)
      subst hc hx
      exact hend _ rfl (commentBody?_append hb).symm
  · rintro ⟨rfl, h⟩
    induction body with
    | nil => rfl
    | cons c body ih =>
      rw [List.infix_cons_iff, not_or] at h
      rw [List.cons_append, commentBody?, ih h.2]
      · rfl
      · rintro r' rfl hr
        refine h.1 ?_
        cases body with
        | nil => cases hr
        | cons a body =>
          obtain ⟨rfl, -⟩ := List.cons_eq_cons.1 hr
          exact ⟨body, rfl⟩

/-- A comment does not end if and only if no end of a comment follows. -/
theorem commentBody?_eq_none_iff {s : Text} : commentBody? s = none ↔ ¬ ['*', '/'] <:+: s := by
  constructor
  · intro h
    fun_induction commentBody? s with
    | case1 => decide
    | case2 => cases h
    | case3 c s hend ih => exact not_infix_cons hend (ih (Option.map_eq_none_iff.1 h))
  · intro h
    cases hs : commentBody? s with
    | none => rfl
    | some x =>
      refine (h ?_).elim
      rw [(commentBody?_eq_some_iff.1 hs).1]
      exact ⟨x.1, x.2, by simp⟩

/-- A name is the whole name of itself, and what follows it goes on with no character of a name. -/
theorem atName?_self {s name x : Text} (h : atName? s = some (name, x)) :
    atName? name = some (name, []) ∧ Text.Clear isNameMore x := by
  have htake : ∀ r : Text, (r.takeWhile isNameMore).takeWhile isNameMore =
      r.takeWhile isNameMore ∧ (r.takeWhile isNameMore).dropWhile isNameMore = [] := fun r => by
    have hall := Text.all_leading isNameMore r
    have h₁ := Text.leading_of_all hall []
    have h₂ := Text.trimStart_of_all hall []
    rw [List.append_nil] at h₁ h₂
    exact ⟨h₁.trans (List.append_nil _), h₂⟩
  unfold atName? at h
  split at h
  · split at h
    · rename_i c r hc
      cases h
      refine ⟨?_, Text.clear_trimStart isNameMore r⟩
      rw [atName?, if_pos hc, (htake r).1, (htake r).2]
    · cases h
  · rename_i c r hno
    split at h
    · rename_i hc
      cases h
      refine ⟨?_, Text.clear_trimStart isNameMore r⟩
      rw [atName?, if_pos hc, (htake r).1, (htake r).2]
      rintro c' r' rfl
      cases hc
    · cases h
  · cases h

theorem atName?_append_clear {name x : Text} (h : atName? name = some (name, []))
    (hx : Text.Clear isNameMore x) : atName? (name ++ x) = some (name, x) := by
  have happ : ∀ {r : Text}, Text.All isNameMore r →
      (r ++ x).takeWhile isNameMore = r ∧ (r ++ x).dropWhile isNameMore = x := fun {r} hr => by
    have h₁ := Text.leading_of_all hr x
    rw [Text.leading_of_clear hx, List.append_nil] at h₁
    exact ⟨h₁, (Text.trimStart_of_all hr x).trans (Text.trimStart_of_clear hx)⟩
  have hall : ∀ {r : Text}, r.takeWhile isNameMore = r → Text.All isNameMore r := fun {r} hr => by
    rw [← hr]
    exact Text.all_leading isNameMore r
  unfold atName? at h
  split at h
  · split at h
    · rename_i c r hc
      have hr : r.takeWhile isNameMore = r := by simpa using congrArg (fun o => o.map Prod.fst) h
      rw [List.cons_append, List.cons_append, atName?, if_pos hc, (happ (hall hr)).1,
        (happ (hall hr)).2]
    · cases h
  · rename_i c r hno
    split at h
    · rename_i hc
      have hr : r.takeWhile isNameMore = r := by simpa using congrArg (fun o => o.map Prod.fst) h
      rw [List.cons_append, atName?, if_pos hc, (happ (hall hr)).1, (happ (hall hr)).2]
      rintro c' r' rfl
      cases hc
    · cases h
  · cases h
end StyleSplice
