import StyleSplice.Proofs.Asset.Seen
import StyleSplice.Proofs.Sheet.Modes

/-!
# What is a reference for the reader of sheets

For the reader of sheets a reference is the argument of a `url()` outside strings and comments, or a
string among the arguments of an `image-set()`, in no further brackets. The finders do not read so,
but these are the references they are meant to find.
-/

namespace StyleSplice

/-- A word may begin a function behind the text: nothing but brackets is open there, and neither a
character of a name nor an escape stands in front of the word. -/
def Begins (front : Text) : Prop :=
  (Inside.after .plain 0 front).1 = .plain ∧ (Inside.after .plain 0 front.dropLast).1 ≠ .escape ∧
    ∀ c ∈ front.getLast?, isNameMore c = false

instance (front : Text) : Decidable (Begins front) :=
  @instDecidableAnd _ _ _ (@instDecidableAnd _ _ _ (Option.decidableForallMem _))

namespace AssetRef

variable {depth : Nat} {front inner k rest s u url value word : Text} {a : AssetRef} {q : Char}

/-- The address is all of the string or of the argument that the reader of sheets takes it for. -/
def Enclosed (a : AssetRef) : Prop :=
  match a.quote with
  | some q => StringBody q a.url
  | none => Whole true a.url

/-- The reference is the argument of a `url()` in a text that begins at `at₀`. -/
def IsUrlArgument (at₀ : Nat) (s : Text) (a : AssetRef) : Prop :=
  ∃ front t rest, s = front ++ t ∧ Begins front ∧ CallForm (at₀ + front.length) t a rest ∧
    a.Enclosed

/-- The reference is a string of an image set in a text that begins at `at₀`. The arguments in front
of it, its quote and its address satisfy `args`. -/
inductive IsSetString (args : Text → Char → Text → Prop) (at₀ : Nat) : Text → AssetRef → Prop
  | mk {front word inner url rest : Text} {q : Char} (begins : Begins front)
    (named : IsSetWord word) (quote : isQuote q = true) (closed : StringBody q url)
    (read : args inner q url) :
    IsSetString args at₀ (front ++ (word ++ (inner ++ q :: (url ++ q :: rest))))
      ⟨q :: url ++ [q], url, some q, at₀ + (front ++ (word ++ inner)).length + 1,
        at₀ + (front ++ (word ++ inner)).length + 1 + url.length⟩

/-- The reference is itself one of the arguments of an image set, in no further brackets. -/
abbrev IsDirect (at₀ : Nat) (s : Text) (a : AssetRef) : Prop :=
  IsSetString (fun inner _ _ => Whole true inner) at₀ s a

/-- The arguments in front of a string, and the string, show the finders what the reader of sheets
sees: no token hides a quote, the string ends at its next quote, and up to its end there are never
more round brackets closed than opened. -/
def Shows (inner : Text) (q : Char) (url : Text) : Prop :=
  Seen inner ∧ q ∉ url ∧ (bracketsAfter? 0 (inner ++ url)).isSome

theorem Shows.whole (h : Shows inner q url) : Whole true inner := whole_of_seen h.1

theorem IsSetString.mono {args args' : Text → Char → Text → Prop} {at₀ : Nat}
    (h : IsSetString args at₀ s a) (hargs : ∀ inner q url, args inner q url → args' inner q url) :
    IsSetString args' at₀ s a := by
  cases h with
  | mk begins named quote closed read => exact .mk begins named quote closed (hargs _ _ _ read)

theorem made_of_mild {l : Lexicon} (hl : ∀ c, l.char true c) (h : ∀ c ∈ u, isMild c = true)
    (hs : Made l true s) : Made l true (u ++ s) :=
  Made.chars (fun c hc => ⟨(isMild_iff.1 (h c hc)).1, (isMild_iff.1 (h c hc)).2.1, hl c⟩) hs

theorem whole_of_mild (h : ∀ c ∈ u, isMild c = true) : Whole true u := by
  have hmade : Whole true (u ++ []) := made_of_mild (fun _ hc => by cases hc) h .nil
  rwa [List.append_nil] at hmade

theorem mild_of_blanks (h : Text.All isBlank u) : ∀ c ∈ u, isMild c = true :=
  fun c hc => isMild_of_isBlank (h c hc)

/-- Behind a word one more bracket is open. -/
theorem after_bracket (h : ∀ c ∈ u, isMild c = true) (depth : Nat) (k : Text) :
    Inside.after .plain depth (u ++ '(' :: k) = Inside.after .plain (depth + 1) k := by
  rw [Inside.after_whole (whole_of_mild h) (by simp), Inside.after_plain (by simp),
    if_neg (by decide), if_neg (by decide), if_pos (by simp)]

/-- Between its quotes a string is not left. -/
theorem after_stringBody_ne {opened : Text} (h : StringBody q (u ++ s)) :
    (Inside.after (.string q opened) depth u).1 ≠ .plain := by
  generalize hbody : u ++ s = body at h
  induction h generalizing u with
  | nil =>
    rw [(List.append_eq_nil_iff.1 hbody).1]
    simp
  | escaped rest ih =>
    match u, hbody with
    | [], _ => simp
    | [c], hbody =>
      obtain ⟨rfl, -⟩ := List.cons_eq_cons.1 hbody
      simp
    | c :: d :: u, hbody =>
      obtain ⟨rfl, hrest⟩ := List.cons_eq_cons.1 hbody
      rw [Inside.after, if_pos rfl, Inside.after]
      exact ih (List.cons_eq_cons.1 hrest).2
  | char backslash quote rest ih =>
    cases u with
    | nil => simp
    | cons c u =>
      obtain ⟨rfl, hrest⟩ := List.cons_eq_cons.1 hbody
      rw [Inside.after, if_neg backslash, if_neg quote]
      exact ih hrest

end AssetRef

end StyleSplice
