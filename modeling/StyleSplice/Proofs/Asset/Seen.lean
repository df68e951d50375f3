import StyleSplice.Proofs.Asset.Finding
import StyleSplice.Proofs.Import.Legible

/-!
# Texts that the finders see through

The finders count round brackets and pair quotes without regard to strings, comments and escapes. A
text whose round brackets close one another wherever they stand is passed over by the count, and one
whose tokens hide no quote by the finder of strings, which then takes no quote for the end of a
string that it does not end.
-/

namespace StyleSplice

namespace AssetRef

variable {at₀ depth d e : Nat} {s t u x : Text} {inner : Bool} {c : Char}

/-- The number of round brackets that are open behind the text, if none is closed that is not open.
-/
def bracketsAfter? : Nat → Text → Option Nat
  | depth, [] => some depth
  | depth, c :: r =>
    if c = '(' then bracketsAfter? (depth + 1) r
    else if c = ')' then if depth = 0 then none else bracketsAfter? (depth - 1) r
    else bracketsAfter? depth r

/-- The round brackets of the text close one another. -/
def Level (s : Text) : Prop := bracketsAfter? 0 s = some 0

instance (s : Text) : Decidable (Level s) := inferInstanceAs (Decidable (_ = _))

theorem bracketsAfter?_append (depth : Nat) (s t : Text) :
    bracketsAfter? depth (s ++ t) = (bracketsAfter? depth s).bind fun e => bracketsAfter? e t := by
  induction s generalizing depth with
  | nil => rfl
  | cons c s ih =>
    rw [List.cons_append, bracketsAfter?, bracketsAfter?, ih, ih, ih]
    split_ifs <;> rfl

/-- More brackets in front stay open. -/
theorem bracketsAfter?_add (h : bracketsAfter? d s = some e) (k : Nat) :
    bracketsAfter? (d + k) s = some (e + k) := by
  fun_induction bracketsAfter? d s with
  | case1 =>
    cases h
    rfl
  | case2 depth r ih =>
    rw [bracketsAfter?, if_pos rfl, ← ih h, Nat.add_right_comm]
  | case3 => cases h
  | case4 depth r hd hc ih =>
    have hplace : depth + k - 1 = depth - 1 + k := by omega
    rw [bracketsAfter?, if_neg hc, if_pos rfl, if_neg (by omega), hplace, ih h]
  | case5 depth c r ho hc ih => rw [bracketsAfter?, if_neg ho, if_neg hc, ih h]

theorem Level.bracketsAfter?_eq (h : Level s) (depth : Nat) :
    bracketsAfter? depth s = some depth := by
  simpa using bracketsAfter?_add h depth

theorem bracketsAfter?_cons (ho : c ≠ '(') (hc : c ≠ ')') (depth : Nat) (s : Text) :
    bracketsAfter? depth (c :: s) = bracketsAfter? depth s := by
  rw [bracketsAfter?, if_neg ho, if_neg hc]

theorem closedLength_closing (depth : Nat) (r : Text) :
    closedLength depth (')' :: r) = if depth = 0 then 0 else closedLength (depth - 1) r + 1 := by
  cases depth <;> simp [closedLength]

theorem closedLength_cons (h : c ≠ ')') (depth : Nat) (r : Text) :
    closedLength depth (c :: r) = closedLength (if c = '(' then depth + 1 else depth) r + 1 := by
  by_cases ho : c = '(' <;> simp [closedLength, h, ho]

/-- The count comes to a text with the brackets that are open behind the text in front, unless it
has stopped before. -/
theorem closedLength_append (depth : Nat) (s t : Text) :
    closedLength depth (s ++ t) =
      match bracketsAfter? depth s with
      | some e => s.length + closedLength e t
      | none => closedLength depth s := by
  fun_induction bracketsAfter? depth s with
  | case1 => simp
  | case2 depth r ih =>
    rw [List.cons_append, closedLength_cons (by decide), closedLength_cons (by decide), if_pos rfl,
      ih]
    cases bracketsAfter? (depth + 1) r with
    | none => rfl
    | some e => simp only [List.length_cons]; omega
  | case3 r hc =>
    rw [List.cons_append, closedLength_closing, if_pos rfl, closedLength_closing, if_pos rfl]
  | case4 depth r hd hc ih =>
    rw [List.cons_append, closedLength_closing, if_neg hd, closedLength_closing, if_neg hd, ih]
    cases bracketsAfter? (depth - 1) r with
    | none => rfl
    | some e => simp only [List.length_cons]; omega
  | case5 depth c r ho hc ih =>
    rw [List.cons_append, closedLength_cons hc, closedLength_cons hc, if_neg ho, ih]
    cases bracketsAfter? depth r with
    | none => rfl
    | some e => simp only [List.length_cons]; omega

theorem Level.closedLength_eq (h : Level s) (depth : Nat) (t : Text) :
    closedLength depth (s ++ t) = s.length + closedLength depth t := by
  rw [closedLength_append, h.bracketsAfter?_eq]

end AssetRef

/-- The tokens that hide no quote from the finders: no escape stands for one, no comment holds one,
and a string ends at its next quote. -/
def Lexicon.seen : Lexicon where
  char inner c := inner = false → isStop c = false
  escaped c := isQuote c = false
  comment body := ∀ c ∈ body, isQuote c = false
  string q body := q ∉ body
  brackets _ _ := True

/-- A text in brackets, made of tokens that hide no quote from the finders. -/
def Seen (s : Text) : Prop := Made .seen true s

namespace AssetRef

variable {s t : Text} {inner : Bool}

theorem whole_of_seen (h : Seen s) : Whole true s := Made.whole (fun _ hc => by exact hc rfl) h

/-- The finder of strings comes to what is behind the text, with what it has found in the text. -/
def Passable (s : Text) : Prop :=
  ∀ at₀, ∃ found, ∀ t, strings at₀ 0 (s ++ t) = found ++ strings (at₀ + s.length) 0 t

theorem Passable.append (hs : Passable s) (ht : Passable t) : Passable (s ++ t) := by
  intro at₀
  obtain ⟨found, hfound⟩ := hs at₀
  obtain ⟨found', hfound'⟩ := ht (at₀ + s.length)
  refine ⟨found ++ found', fun r => ?_⟩
  rw [List.append_assoc, hfound, hfound', List.append_assoc, List.length_append, Nat.add_assoc]

theorem passable_clear (h : ∀ c ∈ s, isQuote c = false) : Passable s :=
  fun _ => ⟨[], fun _ => strings_clear h⟩

theorem passable_quoted {q : Char} (hq : isQuote q = true) (h : q ∉ s) :
    Passable (q :: (s ++ [q])) := by
  intro at₀
  refine ⟨[⟨q :: s ++ [q], s, some q, at₀ + 1, at₀ + 1 + s.length⟩], fun t => ?_⟩
  have hplace : at₀ + (q :: (s ++ [q])).length = at₀ + s.length + 2 := by
    simp only [List.length_cons, List.length_append, List.length_nil]
    omega
  rw [hplace, List.cons_append, List.append_assoc, List.singleton_append, strings_quoted hq h]
  rfl

/-- The finder of strings pairs the quotes of such a text as the reader of sheets does. -/
theorem passable_of_seen (h : Made .seen inner s) : Passable s := by
  have hmark : ∀ {c : Char} {t : Text}, isQuote c = false → Passable t → Passable (c :: t) :=
    fun hc ht => (passable_clear (s := [_]) (by simpa using hc)).append ht
  induction h with
  | nil => exact passable_clear (by simp)
  | char single allowed comment rest ih => exact hmark (isSingle_iff.1 single).1 ih
  | escape allowed rest ih => exact hmark rfl (hmark allowed ih)
  | comment ending allowed rest ih =>
    exact hmark rfl (hmark rfl ((passable_clear allowed).append (hmark rfl (hmark rfl ih))))
  | string quote closed allowed rest ih => simpa using (passable_quoted quote allowed).append ih
  | bracketed opening closing allowed within rest ihu ih =>
    have ho : ∀ {c : Char}, c = '(' ∨ c = '[' → isQuote c = false := by
      rintro c (rfl | rfl) <;> rfl
    have hc : ∀ {c : Char}, c = ')' ∨ c = ']' → isQuote c = false := by
      rintro c (rfl | rfl) <;> rfl
    exact hmark (ho opening) (ihu.append (hmark (hc closing) ih))

end AssetRef

end StyleSplice
