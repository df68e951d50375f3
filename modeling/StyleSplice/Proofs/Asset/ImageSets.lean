import Mathlib.Data.List.Basic
import StyleSplice.Proofs.Asset.Proper

/-!
# The strings of image sets

The finder takes the argument of an image set up to the bracket that its count ends at, and pairs
the quotes in it from the left. Behind arguments that it sees through it comes to each string as the
reader of sheets does, so that the string is missed only if it lies in what was taken for a `url()`
call.
-/

namespace StyleSplice

namespace AssetRef

variable {front inner rest s t u url value word : Text} {a b : AssetRef} {q : Char}

theorem ne_bracket_of_isQuote (hq : isQuote q = true) : q ≠ '(' ∧ q ≠ ')' := by
  constructor <;> rintro rfl <;> cases hq

theorem head?_ne_of_isQuote (hq : isQuote q = true) (k : Text) : (q :: k).head? ≠ some '*' := by
  rintro ⟨⟩
  cases hq

/-- The finder comes to a string behind arguments that show it. -/
theorem mem_imageSetStrings (named : IsSetWord word) (hq : isQuote q = true)
    (hshows : Shows inner q url)
    (hvalue : value = front ++ (word ++ (inner ++ q :: (url ++ q :: rest)))) :
    ⟨q :: url ++ [q], url, some q, (front ++ (word ++ inner)).length + 1,
      (front ++ (word ++ inner)).length + 1 + url.length⟩ ∈ imageSetStrings 0 0 value := by
  obtain ⟨hinner, hnext, hcount⟩ := hshows
  obtain ⟨w, short, rfl, hshort⟩ := named.exists_short
  have hset := @mem_imageSets_of_isWord 0 value short 0 (front ++ w)
    (inner ++ q :: (url ++ q :: rest)) hshort (Nat.zero_le _) (by simp [hvalue])
  have hmark := ne_bracket_of_isQuote hq
  -- the count comes to the text behind the string
  obtain ⟨d, hd⟩ : ∃ d, bracketsAfter? 0 (inner ++ q :: (url ++ [q])) = some d := by
    obtain ⟨d, hd⟩ := Option.isSome_iff_exists.1 hcount
    refine ⟨d, ?_⟩
    rw [bracketsAfter?_append] at hd ⊢
    obtain ⟨e, he, hurl⟩ := Option.bind_eq_some_iff.1 hd
    rw [he, Option.bind_some, bracketsAfter?_cons hmark.1 hmark.2, bracketsAfter?_append, hurl,
      Option.bind_some, bracketsAfter?_cons hmark.1 hmark.2, bracketsAfter?]
  have htake : (inner ++ q :: (url ++ q :: rest)).take
      (closedLength 0 (inner ++ q :: (url ++ q :: rest))) =
        inner ++ q :: (url ++ q :: rest.take (closedLength d rest)) := by
    have hall : inner ++ q :: (url ++ q :: rest) = inner ++ q :: (url ++ [q]) ++ rest := by simp
    rw [hall, closedLength_append, hd, List.take_length_add_append]
    simp
  rw [htake] at hset
  rw [imageSetStrings_eq]
  refine List.mem_flatMap.2 ⟨_, hset, ?_⟩
  obtain ⟨found, hfound⟩ := passable_of_seen hinner (0 + (front ++ w).length + short.length)
  dsimp only
  rw [hfound, strings_quoted hq hnext]
  refine List.mem_append_right _ (List.mem_cons.2 (.inl ?_))
  simp only [List.length_append, Nat.zero_add, Nat.add_assoc]

/-- A character that is not in the first part of a text stands in the second. -/
theorem exists_of_append_eq {c : Char} {k r v : Text} (hc : c ∉ u) (h : u ++ k = v ++ c :: r) :
    ∃ w, v = u ++ w ∧ k = w ++ c :: r := by
  rcases List.append_eq_append_iff.1 h with ⟨w, rfl, hk⟩ | ⟨w, rfl, hw⟩
  · exact ⟨w, rfl, hk⟩
  · cases w with
    | nil => exact ⟨[], by simp, by simpa using hw.symm⟩
    | cons d w =>
      obtain ⟨rfl, -⟩ := List.cons_eq_cons.1 hw
      exact absurd (List.mem_append_right _ List.mem_cons_self) hc

/-- A mark that does not stand behind another one ends no later part. -/
theorem prefix_of_append_eq {c d : Char} {k r v : Text} (hc : c ∉ k)
    (h : u ++ d :: k = v ++ c :: r) : v <+: u := by
  rcases List.append_eq_append_iff.1 h with ⟨w, rfl, hk⟩ | ⟨w, rfl, -⟩
  · cases w with
    | nil => simp
    | cons e w =>
      obtain ⟨-, rfl⟩ := List.cons_eq_cons.1 hk
      exact absurd (List.mem_append_right _ List.mem_cons_self) hc
  · exact List.prefix_append _ _

theorem notMem_of_mild {c : Char} (hc : isMild c = false) (h : ∀ x ∈ u, isMild x = true) : c ∉ u :=
  fun hmem => by
    rw [h c hmem] at hc
    cases hc

theorem isMild_of_isQuote (hq : isQuote q = true) : isMild q = false := by
  simp [isMild, isSingle, hq]

theorem seamless_of_mild (hu : ∀ c ∈ u, isMild c = true) : Inside.Seamless front u :=
  Inside.seamless_of_head (head?_ne_of_isMild hu) fun h =>
    (isMild_iff.1 (hu '/' (List.mem_of_mem_head? h))).2.1 rfl

theorem seamless_word (hu : ∀ c ∈ u, isMild c = true) (k : Text) :
    Inside.Seamless front (u ++ '(' :: k) := by
  have hmild : Inside.Seamless front u := seamless_of_mild hu
  cases u with
  | nil => exact Inside.seamless_of_head (by simp) (by simp)
  | cons c u => simpa [Inside.Seamless] using hmild

/-- A word behind a text that leaves nothing but brackets open opens one more. -/
theorem after_word {n : Nat} (h : (Inside.after .plain n front).1 = .plain)
    (hu : ∀ c ∈ u, isMild c = true) (k : Text) :
    Inside.after .plain n (front ++ (u ++ '(' :: k)) =
      Inside.after .plain ((Inside.after .plain n front).2 + 1) k := by
  rw [Inside.after_append .plain n (seamless_word hu k), h, after_bracket hu]

/-- A whole text is left as it was entered. -/
theorem after_self (h : Whole true s) (depth : Nat) :
    Inside.after .plain depth s = (.plain, depth) := by
  have hs : Inside.after .plain depth (s ++ []) = _ := Inside.after_whole h (by simp)
  rwa [List.append_nil] at hs

theorem after_mild {n : Nat} (h : (Inside.after .plain n front).1 = .plain)
    (hu : ∀ c ∈ u, isMild c = true) : (Inside.after .plain n (front ++ u)).1 = .plain := by
  rw [Inside.after_append .plain n (seamless_of_mild hu), h, after_self (whole_of_mild hu)]

theorem exists_last_letter {k : Char} {w : Text} (h : IsWord (w ++ [k, '(']) (u ++ ['('])) :
    ∃ x c, u = x ++ [c] ∧ isLetter k c = true := by
  obtain ⟨x, y, hu, -, hy⟩ := h.split
  obtain ⟨c, d, rfl⟩ := List.length_eq_two.1 hy.length_eq
  refine ⟨x, c, ?_, ?_⟩
  · have hlast : u ++ ['('] = x ++ [c] ++ [d] := by simp [hu]
    exact (List.append_inj' hlast rfl).1
  · by_contra hno
    simp [IsWord, afterWord?, hno] at hy

/-- The words of a call and of an image set do not end alike. -/
theorem word_ne_call {v : Text} (named : IsSetWord (u ++ ['(']))
    (call : IsWord "url(".toList (v ++ ['('])) (h : front ++ u = s ++ v) : False := by
  obtain ⟨x, c, rfl, hc⟩ : ∃ x c, u = x ++ [c] ∧ isLetter 't' c = true := by
    rcases named with h | h
    · exact exists_last_letter (k := 't') (w := "-webkit-image-se".toList) h
    · exact exists_last_letter (k := 't') (w := "image-se".toList) h
  obtain ⟨y, d, rfl, hd⟩ := exists_last_letter (k := 'l') (w := "ur".toList) call
  rw [← List.append_assoc, ← List.append_assoc] at h
  obtain rfl : c = d := by simpa using (List.append_inj' h rfl).2
  have ht : c.toLower = 't' := by simpa [isLetter] using hc
  have hl : c.toLower = 'l' := by simpa [isLetter] using hd
  rw [ht] at hl
  cases hl

/-- The bracket of a call is not the last one that is open where arguments of an image set are read.
-/
theorem not_behind_call {call gap v : Text} (hcall : Begins call)
    (hv : IsWord "url(".toList (v ++ ['('])) (hmild : ∀ c ∈ v, isMild c = true)
    (hgap : Text.All isBlank gap) (hfront : Begins front) (named : IsSetWord (u ++ ['(']))
    (hu : ∀ c ∈ u, isMild c = true)
    (hinner : Whole true inner) (h : front ++ (u ++ '(' :: inner) = call ++ (v ++ '(' :: gap)) :
    False := by
  have hsame : front ++ u ≠ call ++ v := fun heq => word_ne_call named hv heq
  rw [← List.append_assoc, ← List.append_assoc call] at h
  rcases List.append_eq_append_iff.1 h with ⟨w, hw, hbracket⟩ | ⟨w, hw, hbracket⟩
  · cases w with
    | nil => exact hsame (by rw [hw, List.append_nil])
    | cons c w =>
      -- the arguments would be open at a bracket in front of the word of the call
      obtain ⟨rfl, hsplit⟩ : '(' = c ∧ inner = w ++ '(' :: gap := List.cons_eq_cons.1 hbracket
      subst hsplit
      have hplain : (Inside.after .plain 0 (call ++ v)).1 = .plain := after_mild hcall.1 hmild
      rw [hw, List.append_assoc, after_word hfront.1 hu, Inside.after_fst _ _ 0]
        at hplain
      have hopen := after_word hplain (u := []) (by simp) gap
      rw [List.nil_append, after_self hinner, after_self (whole_of_mild (mild_of_blanks hgap))]
        at hopen
      cases hopen
  · cases w with
    | nil => exact hsame (by rw [hw, List.append_nil])
    | cons c w =>
      obtain ⟨rfl, hgap'⟩ := List.cons_eq_cons.1 hbracket
      have hblank := hgap '(' (by rw [hgap']; simp)
      revert hblank
      decide

/-- A call holds each character that begins within its length. -/
theorem exists_raw_eq {at₀ : Nat} {x : Text} (hform : CallForm at₀ (x ++ q :: rest) b s)
    (hlt : x.length < b.raw.length) : ∃ y, b.raw = x ++ q :: y := by
  obtain ⟨y, hy⟩ : x <+: b.raw :=
    List.prefix_of_prefix_length_le ⟨_, rfl⟩ ⟨s, hform.raw_append⟩ (Nat.le_of_lt hlt)
  have hraw := hform.raw_append
  rw [← hy, List.append_assoc] at hraw
  cases y with
  | nil =>
    rw [← hy, List.append_nil] at hlt
    exact absurd hlt (Nat.lt_irrefl _)
  | cons c y =>
    obtain ⟨rfl, -⟩ := List.cons_eq_cons.1 (List.append_cancel_left hraw)
    exact ⟨y, hy.symm⟩

/-- In the string of a call the string is open. -/
theorem after_call_string {call gap v w : Text} {p : Char} (hcall : Begins call)
    (hv : ∀ c ∈ v, isMild c = true) (hgap : Text.All isBlank gap) (hp : isQuote p = true)
    (hbody : StringBody p (w ++ url)) :
    (Inside.after .plain 0 (call ++ (v ++ '(' :: (gap ++ p :: w)))).1 ≠ .plain := by
  have hmark : p ≠ '/' ∧ p ≠ '*' := by
    constructor <;> rintro rfl <;> cases hp
  rw [after_word hcall.1 hv,
    Inside.after_whole (whole_of_mild (mild_of_blanks hgap)) (by simpa using hmark.2),
    Inside.after_plain (absurd · hmark.1), if_pos hp]
  exact after_stringBody_ne hbody

/-- The quote of a string is not read inside a call whose address is all of its argument. -/
theorem not_inside_call {call : Text} (hcall : Begins call) (hform : CallForm call.length t b s)
    (hclosed : b.Enclosed) (hfront : Begins front) (named : IsSetWord word)
    (hinner : Whole true inner)
    (hq : isQuote q = true) (htext : call ++ t = front ++ (word ++ inner) ++ q :: rest)
    (hfrom : call.length ≤ (front ++ (word ++ inner)).length)
    (hto : (front ++ (word ++ inner)).length < call.length + b.raw.length) : False := by
  obtain ⟨u, rfl, hu⟩ := named.exists_bracket
  obtain ⟨x, hx⟩ : call <+: front ++ (u ++ ['('] ++ inner) :=
    List.prefix_of_prefix_length_le ⟨t, rfl⟩ ⟨q :: rest, htext.symm⟩ hfrom
  have hplain : (Inside.after .plain 0 (call ++ x)).1 = .plain := by
    rw [hx, List.append_assoc, List.singleton_append, after_word hfront.1 hu, after_self hinner]
  rw [← hx, List.append_assoc] at htext
  obtain rfl : t = x ++ q :: rest := List.append_cancel_left htext
  obtain ⟨y, hy⟩ : ∃ y, b.raw = x ++ q :: y := by
    refine exists_raw_eq hform ?_
    rw [← hx, List.length_append] at hto
    omega
  have hmark := isMild_of_isQuote hq
  have hbracket := ne_bracket_of_isQuote hq
  have hblank : ∀ {gap : Text}, Text.All isBlank gap → q ∉ gap :=
    fun hgap => notMem_of_mild hmark (mild_of_blanks hgap)
  generalize hlist : x ++ q :: rest = list at hform
  cases hform with
  | @quoted word' gap url gap' _ p named' gaps quote first gaps' =>
    obtain ⟨v, rfl, hv⟩ := exists_bracket_of_call named'
    have hbody : StringBody p url := hclosed
    have hfree : q ∉ v ++ ['('] ++ gap := by
      simp only [List.mem_append, List.mem_singleton, not_or]
      exact ⟨⟨notMem_of_mild hmark hv, hbracket.1⟩, hblank gaps⟩
    have htail : v ++ ['('] ++ gap ++ p :: (url ++ p :: (gap' ++ [')'])) = x ++ q :: y := by
      rw [← hy, List.append_assoc]
    obtain ⟨w, rfl, hw⟩ := exists_of_append_eq hfree htail
    cases w with
    | nil =>
      refine not_behind_call hcall named' hv gaps hfront named hu hinner ?_
      simpa using hx.symm
    | cons c w =>
      obtain ⟨rfl, hin⟩ : p = c ∧ url ++ p :: (gap' ++ [')']) = w ++ q :: y :=
        List.cons_eq_cons.1 hw
      have hbehind : q ∉ gap' ++ [')'] := by
        simp only [List.mem_append, List.mem_singleton, not_or]
        exact ⟨hblank gaps', hbracket.2⟩
      obtain ⟨z, rfl⟩ : w <+: url := prefix_of_append_eq hbehind hin
      exact after_call_string hcall hv gaps quote hbody (by simpa using hplain)
  | @bare word' gap url gap' _ named' gaps plain gaps' empty =>
    obtain ⟨v, rfl, hv⟩ := exists_bracket_of_call named'
    have hmem : q ∈ v ++ ['('] ++ (gap ++ (url ++ (gap' ++ [')']))) := by
      have hquote : q ∈ x ++ q :: y := by simp
      rwa [← hy] at hquote
    simp only [List.mem_append, List.mem_singleton] at hmem
    rcases hmem with (hmem | hmem) | hmem | hmem | hmem | hmem
    · exact notMem_of_mild hmark hv hmem
    · exact hbracket.1 hmem
    · exact hblank gaps hmem
    · rw [(isBareChar_iff.1 (plain q hmem)).2.1] at hq
      cases hq
    · exact hblank gaps' hmem
    · exact hbracket.2 hmem

/-- A string of an image set is not covered as long as each call that is found in front of it begins
one for the reader of sheets too, and has all of its argument for its address. -/
theorem not_covered (h : IsDirect 0 value a)
    (hcalls : ∀ x ∈ urlCalls 0 0 value, x.2.1 < a.start →
      Begins (value.take x.2.1) ∧ x.1.Enclosed) : ¬ Covered value a := by
  rintro ⟨x, hx, hbefore, hbehind⟩
  obtain ⟨hbegins, hclosed⟩ := hcalls x hx hbefore
  obtain ⟨call, t, s, htext, hform, hfrom, hto⟩ := exists_form_of_mem_urlCalls hx
  rw [Nat.zero_add] at hform hfrom hto
  rw [hfrom, htext, List.take_left] at hbegins
  cases h with
  | @mk front word inner url rest q begins named quote closed whole =>
    dsimp only at hbefore hbehind
    have hsplit : call ++ t = front ++ (word ++ inner) ++ q :: (url ++ q :: rest) := by
      rw [← htext]
      simp
    exact not_inside_call hbegins hform hclosed begins named whole quote hsplit (by omega)
      (by omega)

/-- A call is written with its word, and a string with its quote. -/
theorem raw_head?_of_form {at₀ : Nat} (h : CallForm at₀ t b s) (hq : isQuote q = true) :
    b.raw.head? ≠ some q := by
  have hword : ∀ {word k : Text}, IsWord "url(".toList word → (word ++ k).head? ≠ some q := by
    intro word k hw
    obtain ⟨u, rfl, hu⟩ := exists_bracket_of_call hw
    have hne : ∀ c, isMild c = true ∨ c = '(' → c ≠ q := by
      rintro c (hc | rfl) rfl
      · rw [isMild_of_isQuote hq] at hc
        cases hc
      · cases hq
    cases u with
    | nil => simpa using hne '(' (.inr rfl)
    | cons c u => simpa using hne c (.inl (hu c List.mem_cons_self))
  cases h with
  | quoted named => exact hword named
  | bare named => exact hword named

/-- A string that its image set shows to the finder is missed only where it lies in what was found
as a call; and it is found if those calls are calls for the reader of sheets. -/
theorem shown_string_found (h : IsSetString Shows 0 value a) :
    IsDirect 0 value a ∧ (a ∈ findAll value ↔ ¬ Covered value a) ∧
      ((∀ x ∈ urlCalls 0 0 value, x.2.1 < a.start → Begins (value.take x.2.1) ∧ x.1.Enclosed) →
        a ∈ findAll value) := by
  have hdirect : IsDirect 0 value a := h.mono fun inner q url hshows => hshows.whole
  have hiff : a ∈ findAll value ↔ ¬ Covered value a := by
    rw [(findAll_perm value).mem_iff, List.mem_append, mem_counted]
    cases h with
    | @mk front word inner url rest q begins named quote closed shows =>
      constructor
      · rintro (hmem | hmem)
        · obtain ⟨x, hx, heq⟩ := List.mem_map.1 hmem
          obtain ⟨_, _, _, -, hform, -⟩ := exists_form_of_mem_urlCalls hx
          have hraw := raw_head?_of_form hform quote
          rw [heq] at hraw
          exact absurd rfl hraw
        · exact hmem.2
      · refine fun hfree => .inr ⟨?_, hfree⟩
        rw [Nat.zero_add]
        exact mem_imageSetStrings named quote shows rfl
  exact ⟨hdirect, hiff, fun hcalls => hiff.2 (not_covered hdirect hcalls)⟩

/-- A string with a bracket, the other quote and an escape, behind a call, a comment, a string with
a bracket and a function. -/
theorem shown_string_found_brackets :
    let front := "url(x) ".toList
    let word := "-WebKit-image-set(".toList
    let inner := "/* y */ \"a(1.png\" type(z) 1x, ".toList
    let url := "b)c's\\5c.png".toList
    let value := front ++ (word ++ (inner ++ '\x22' :: (url ++ '\x22' :: " 2x)".toList)))
    let a : AssetRef := ⟨'\x22' :: url ++ ['\x22'], url, some '\x22', 56, 68⟩
    IsSetString Shows 0 value a ∧ IsDirect 0 value a ∧ ¬ Covered value a ∧ a ∈ findAll value := by
  intro front word inner url value a
  have hchars : ∀ {u t : Text}, (∀ c ∈ u, isMild c = true) → Made .seen true t →
      Made .seen true (u ++ t) := fun hu ht => made_of_mild (fun _ hc => by cases hc) hu ht
  have hseen : Seen inner := by
    have hfunction : Seen "(z) 1x, ".toList :=
      .bracketed (u := ['z']) (.inl rfl) (.inl rfl) trivial (hchars (u := ['z']) (by decide) .nil)
        (hchars (u := " 1x, ".toList) (by decide) .nil)
    have hbody : StringBody '\x22' "a(1.png".toList :=
      .chars (s := "a(1.png".toList) (by decide) .nil
    have hnext : '\x22' ∉ "a(1.png".toList := by decide
    have hstring : Seen "\"a(1.png\" type(z) 1x, ".toList :=
      .string rfl hbody hnext (hchars (u := " type".toList) (by decide) hfunction)
    have hcomment : ∀ c ∈ " y ".toList, isQuote c = false := by decide
    exact .comment (by decide) hcomment (hchars (u := [' ']) (by decide) hstring)
  have hclosed : StringBody '\x22' url :=
    .chars (s := "b)c's".toList) (by decide)
      (.escaped (.chars (s := "c.png".toList) (by decide) .nil))
  have hshown : IsSetString Shows 0 value a :=
    .mk (by decide) (by decide) rfl hclosed ⟨hseen, by decide, by decide⟩
  obtain ⟨hdirect, hfound, hcalls⟩ := shown_string_found hshown
  have hmem : a ∈ findAll value := by
    refine hcalls fun x hx _ => ?_
    have hx' : x ∈ [(⟨"url(x)".toList, ['x'], none, 4, 5⟩, 0, 6)] := hx
    obtain rfl := List.mem_singleton.1 hx'
    exact ⟨by decide, whole_of_mild (by decide)⟩
  exact ⟨hshown, hdirect, hfound.1 hmem, hmem⟩

/-- A bracket in a string ends the image set for the finder, so that it finds neither this string
nor the next one. -/
theorem bracketed_string_missed :
    let value := "image-set(\"a)b.png\" 1x, \"c.png\" 2x)".toList
    let a : AssetRef := ⟨"\"a)b.png\"".toList, "a)b.png".toList, some '\x22', 11, 18⟩
    let c : AssetRef := ⟨"\"c.png\"".toList, "c.png".toList, some '\x22', 25, 30⟩
    (∃ t, Sheet.parse ("p\x7bv:".toList ++ value ++ ['\x7d']) = .ok t ∧
      (Node.declarations t.children).map Declaration.value = [value]) ∧
    Closed value ∧ IsDirect 0 value a ∧ IsDirect 0 value c ∧ findAll value = [] := by
  intro value a c
  have hparse : Sheet.parse ("p\x7bv:".toList ++ value ++ ['\x7d']) =
      .ok ⟨[.block [] (.rule ['p'] []) [.declaration ⟨['v'], value, [], [':'], [], false⟩] []], [],
        none⟩ :=
    parse_eq_ok_iff.2 ⟨rfl, .cons rfl (.cons rfl (.cons rfl (.cons rfl (.nil []))))⟩
  have hbody : StringBody '\x22' "a)b.png".toList :=
    .chars (s := "a)b.png".toList) (by decide) .nil
  have hbody' : StringBody '\x22' "c.png".toList := .chars (s := "c.png".toList) (by decide) .nil
  have hblanks : Whole true " 1x, ".toList := whole_of_mild (by decide)
  have hinner : Whole true "\"a)b.png\" 1x, ".toList := .string rfl hbody trivial hblanks
  have hset : IsSetWord "image-set(".toList := by decide
  have hempty : Whole true [] := .nil
  exact ⟨⟨_, hparse, rfl⟩, by decide,
    @IsSetString.mk _ 0 [] _ [] _ _ _ (by decide) hset rfl hbody hempty,
    @IsSetString.mk _ 0 [] _ "\"a)b.png\" 1x, ".toList _ " 2x)".toList _ (by decide) hset rfl hbody'
      hinner, rfl⟩

end AssetRef

end StyleSplice
