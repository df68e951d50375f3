import StyleSplice.Proofs.Sheet.Regular

/-!
# Texts made of whole tokens

Outside and inside brackets a text is a row of tokens: single characters, escapes, comments, strings
and brackets with a text between them. A span takes them one by one, so that nothing in such a text
is open at its end. Which tokens there may be is left to a lexicon.
-/

namespace StyleSplice

/-- The tokens that a text may be made of. -/
structure Lexicon where
  /-- A single character; the flag tells whether it stands in brackets. -/
  char : Bool → Char → Prop
  /-- A character behind a backslash, outside strings. -/
  escaped : Char → Prop
  /-- The body of a comment. -/
  comment : Text → Prop
  /-- A quote and the text up to the next one that ends the string. -/
  string : Char → Text → Prop
  /-- A bracket and the one that closes it. -/
  brackets : Char → Char → Prop

/-- What a string may hold in front of its closing quote. -/
inductive StringBody (q : Char) : Text → Prop
  | nil : StringBody q []
  | escaped {c : Char} {t : Text} (rest : StringBody q t) : StringBody q ('\\' :: c :: t)
  | char {c : Char} {t : Text} (backslash : c ≠ '\\') (quote : c ≠ q) (rest : StringBody q t) :
    StringBody q (c :: t)

/-- The characters that are tokens of their own. -/
def isSingle (c : Char) : Bool :=
  !isQuote c && (c != '\\' && (c != '(' && c != '[' && (c != ')' && c != ']')))

/-- The texts made of the tokens of a lexicon, in brackets or outside. -/
inductive Made (l : Lexicon) : Bool → Text → Prop
  | nil {inner : Bool} : Made l inner []
  | char {inner : Bool} {c : Char} {t : Text} (single : isSingle c = true)
    (allowed : l.char inner c) (comment : c = '/' → t.head? ≠ some '*') (rest : Made l inner t) :
    Made l inner (c :: t)
  | escape {inner : Bool} {c : Char} {t : Text} (allowed : l.escaped c) (rest : Made l inner t) :
    Made l inner ('\\' :: c :: t)
  | comment {inner : Bool} {body t : Text} (ending : ¬ ['*', '/'] <:+: body)
    (allowed : l.comment body) (rest : Made l inner t) :
    Made l inner ('/' :: '*' :: (body ++ '*' :: '/' :: t))
  | string {inner : Bool} {q : Char} {body t : Text} (quote : isQuote q = true)
    (closed : StringBody q body) (allowed : l.string q body) (rest : Made l inner t) :
    Made l inner (q :: (body ++ q :: t))
  | bracketed {inner : Bool} {o c : Char} {u t : Text} (opening : o = '(' ∨ o = '[')
    (closing : c = ')' ∨ c = ']') (allowed : l.brackets o c) (within : Made l true u)
    (rest : Made l inner t) : Made l inner (o :: (u ++ c :: t))

/-- All tokens there are. Outside brackets a stop character is none, as it ends the span. -/
def Lexicon.all : Lexicon where
  char inner c := inner = false → isStop c = false
  escaped _ := True
  comment _ := True
  string _ _ := True
  brackets _ _ := True

/-- A text in which no string, comment or bracket is left open and no bracket is closed that was not
opened there. In brackets it may hold stop characters. -/
def Whole (inner : Bool) (s : Text) : Prop := Made .all inner s

variable {l l' : Lexicon} {inner : Bool} {depth : Nat} {k s t : Text}

theorem isSingle_iff {c : Char} : isSingle c = true ↔
    isQuote c = false ∧ c ≠ '\\' ∧ ¬ (c = '(' ∨ c = '[') ∧ ¬ (c = ')' ∨ c = ']') := by
  simp [isSingle]

/-- A text of some of the tokens is a text of whole tokens. -/
theorem Made.whole (hchar : ∀ c, l.char false c → isStop c = false) (h : Made l inner s) :
    Whole inner s := by
  induction h with
  | nil => exact .nil
  | char single allowed comment rest ih =>
    exact .char single (fun hb => hchar _ (hb ▸ allowed)) comment ih
  | escape allowed rest ih => exact .escape trivial ih
  | comment ending allowed rest ih => exact .comment ending trivial ih
  | string quote closed allowed rest ih => exact .string quote closed trivial ih
  | bracketed opening closing allowed within rest ihu ih =>
    exact .bracketed opening closing trivial ihu ih

/-- A text of single characters in front of one that is made of tokens. -/
theorem Made.chars (hs : ∀ c ∈ s, isSingle c = true ∧ c ≠ '/' ∧ l.char inner c)
    (ht : Made l inner t) : Made l inner (s ++ t) := by
  induction s with
  | nil => exact ht
  | cons c s ih =>
    obtain ⟨hsingle, hslash, hallowed⟩ := hs c List.mem_cons_self
    exact .char hsingle hallowed (fun h => absurd h hslash)
      (ih fun x hx => hs x (List.mem_cons_of_mem _ hx))

theorem StringBody.chars {q : Char} (hs : ∀ c ∈ s, c ≠ '\\' ∧ c ≠ q) (ht : StringBody q t) :
    StringBody q (s ++ t) := by
  induction s with
  | nil => exact ht
  | cons c s ih =>
    obtain ⟨hbackslash, hquote⟩ := hs c List.mem_cons_self
    exact .char hbackslash hquote (ih fun x hx => hs x (List.mem_cons_of_mem _ hx))

/-- The body of a string leads to its closing quote. -/
theorem StringBody.closes {q : Char} (hq : isQuote q = true) (hs : StringBody q s)
    (hk : Closes .plain depth k) : Closes (.string q []) depth (s ++ q :: k) := by
  induction hs with
  | nil =>
    refine .closeString ?_ hk
    rintro rfl
    cases hq
  | escaped rest ih => exact .stringBackslash (.stringEscaped ih)
  | char backslash quote rest ih => exact .stringChar backslash quote ih

/-- The body of a comment leads to its end. -/
theorem closes_comment (hs : ¬ ['*', '/'] <:+: s) (hk : Closes .plain depth k) :
    Closes (.comment []) depth (s ++ '*' :: '/' :: k) := by
  induction s with
  | nil => exact .closeComment hk
  | cons c s ih =>
    rw [List.infix_cons_iff, not_or] at hs
    refine .commentChar ?_ (ih hs.2)
    rintro rfl hslash
    cases s with
    | nil => cases hslash
    | cons a s =>
      obtain rfl : a = '/' := by simpa using hslash
      exact hs.1 ⟨s, rfl⟩

/-- A text of whole tokens leaves the depth of brackets as it was. -/
theorem Whole.closes (h : Whole inner s) (hdepth : inner = true → 0 < depth)
    (hk : Closes .plain depth k) (hstar : k.head? ≠ some '*') :
    Closes .plain depth (s ++ k) := by
  have hstar' : ∀ {c : Char}, isQuote c = true ∨ (c = ')' ∨ c = ']') → ∀ t : Text,
      (c :: t).head? ≠ some '*' := by
    rintro c hc t ⟨⟩
    revert hc
    decide
  induction h generalizing depth k with
  | nil => exact hk
  | @char b c t single allowed comment rest ih =>
    obtain ⟨hquote, hbackslash, hopened, hclosed⟩ := isSingle_iff.1 single
    refine .char hquote hbackslash hopened hclosed ?_
      (fun hc => head?_append_ne hstar (comment hc)) (ih hdepth hk hstar)
    rintro ⟨rfl, hstop⟩
    cases b with
    | false => simp [allowed rfl] at hstop
    | true => exact absurd (hdepth rfl) (Nat.lt_irrefl 0)
  | escape allowed rest ih => exact .backslash (.escaped (ih hdepth hk hstar))
  | comment ending allowed rest ih =>
    have hrest := closes_comment ending (ih hdepth hk hstar)
    simpa using Closes.openComment hrest
  | string quote closed allowed rest ih =>
    have hrest := closed.closes quote (ih hdepth hk hstar)
    simpa using Closes.openString quote hrest
  | @bracketed b o c u t opening closing allowed within rest ihu ih =>
    have hrest : Closes .plain (depth + 1) (c :: (t ++ k)) :=
      .closeBracket closing (ih hdepth hk hstar)
    have hinner := ihu (fun _ => Nat.succ_pos depth) hrest (hstar' (.inr closing) _)
    simpa using Closes.openBracket opening hinner

/-- A stop character behind a text of whole tokens ends the span. -/
theorem Whole.closed (h : Whole false s) : Closed s := by
  have hclosed : Closes .plain 0 (s ++ []) := h.closes (by simp) .done (by simp)
  simpa [Closed] using hclosed

theorem foldr_consSpan_eq_ok_iff {x : Except SheetFault (Text × Text)} {u r : Text} :
    s.foldr consSpan x = .ok (s ++ u, r) ↔ x = .ok (u, r) := by
  induction s with
  | nil => rfl
  | cons c s ih =>
    rw [List.foldr_cons, consSpan_eq_ok_iff, ← ih]
    constructor
    · rintro ⟨v, hv, hx⟩
      obtain ⟨-, rfl⟩ := List.cons_eq_cons.1 hv
      exact hx
    · exact fun hx => ⟨_, rfl, hx⟩

/-- What comes behind a closed text is closed if and only if the whole is. -/
theorem closed_append_iff (hs : Closed s) (hstar : k.head? ≠ some '*') (hslash : k.head? ≠ some '/') :
    Closed (s ++ k) ↔ Closed k := by
  have hk : ∀ {x : Char}, isStop x = false → k.head? ≠ some x → (k ++ [';']).head? ≠ some x := by
    intro x hx hne
    refine head?_append_ne ?_ hne
    rintro ⟨⟩
    cases hx
  have hspan : span (s ++ k ++ [';']) = s.foldr consSpan (span (k ++ [';'])) := by
    rw [span, List.append_assoc]
    exact hs.spanFrom_append rfl (hk (by decide) hstar) (hk (by decide) hslash)
  rw [← span_eq_ok_stop_iff (c := ';') (k := []) (by decide), hspan, foldr_consSpan_eq_ok_iff,
    span_eq_ok_stop_iff (by decide)]

/-- An at-rule up to its semicolon is all of a sheet if and only if the raw text after its name is
closed. -/
theorem parse_statement_iff (name raw : Text) (hname : atName? name = some (name, []))
    (hraw : Text.Clear isNameMore (raw ++ [';'])) {h : AtHead} {origin : Option Text} :
    Sheet.parse ('@' :: (name ++ (raw ++ [';']))) origin =
        .ok ⟨[.statement [] h true], [], origin⟩ ↔
      Closed raw ∧ h = .ofRaw name raw := by
  have hread : atName? (name ++ (raw ++ [';'])) = some (name, raw ++ [';']) :=
    atName?_append_clear hname hraw
  have hitems : Sheet.items ⟨[.statement [] h true], [], origin⟩ =
      [.leaf (.statement [] h true), .finish []] := rfl
  have hitem : ∀ x, item ('@' :: (name ++ (raw ++ [';']))) = .ok x ↔
      ItemForm [] ('@' :: (name ++ (raw ++ [';']))) x.1 x.2 := fun x => item_eq_ok_iff
  rw [parse_eq_ok_iff, hitems]
  constructor
  · rintro ⟨-, hreads⟩
    cases hreads with
    | cons first rest =>
      cases rest with
      | cons last rest =>
        cases rest
        obtain rfl := item_text last
        cases (hitem _).1 first with
        | statement name_eq span_eq =>
          rw [hread] at name_eq
          cases name_eq
          obtain rfl := List.append_cancel_right (span_append span_eq)
          exact ⟨closed_of_span span_eq, rfl⟩
  · rintro ⟨hclosed, rfl⟩
    have hspan := (span_eq_ok_stop_iff (c := ';') (k := []) (by decide)).2 hclosed
    exact ⟨rfl, .cons ((hitem (_, [])).2 (.statement hread hspan)) (.cons rfl (.nil []))⟩

end StyleSplice
