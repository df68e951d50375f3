import StyleSplice.Proofs.Asset.Candid

/-!
# The references of candid values

What is found in a candid value is for the reader of sheets the argument of a `url()`, or a string
of an image set that is itself one of its arguments. Elsewhere the finders go by their words alone,
and take a string for a reference that is the argument of another function, or a word in a string or
a comment.
-/

namespace StyleSplice

namespace AssetRef

variable {at₀ n : Nat} {front inner k origin out s t u url value word x y : Text} {a : AssetRef}
  {c q : Char} {refs : List AssetRef}

/-- A text behind which the next one is read as if it stood alone. -/
def Fresh (y : Text) : Prop := Begins y ∧ ∀ t, Inside.Seamless y t

theorem fresh_nil : Fresh [] := ⟨by decide, Inside.seamless_nil⟩

/-- A text ends afresh in a bracket or a quote that is one, at which nothing but brackets is left
open. -/
theorem fresh_of_last (hc : isQuote c = true ∨ c = '(' ∨ c = ')')
    (hescape : (Inside.after .plain 0 y).1 ≠ .escape)
    (hplain : (Inside.after .plain 0 (y ++ [c])).1 = .plain) : Fresh (y ++ [c]) := by
  have hmark : isNameMore c = false ∧ c ≠ '/' ∧ c ≠ '*' := by
    rcases hc with hc | rfl | rfl
    · rcases Inside.isQuote_iff.1 hc with rfl | rfl <;> decide
    · decide
    · decide
  refine ⟨⟨hplain, by rwa [List.dropLast_concat], by simpa using hmark.1⟩, fun t => ⟨?_, ?_⟩⟩
  · simp [hmark.2.1]
  · simp [hmark.2.2]

theorem Fresh.after_append (hy : Fresh y) (s : Text) : ∃ depth,
    Inside.after .plain 0 (y ++ s) = Inside.after .plain depth s := by
  refine ⟨(Inside.after .plain 0 y).2, ?_⟩
  rw [Inside.after_append .plain 0 (hy.2 s), hy.1.1]

theorem Fresh.begins_append (hy : Fresh y) (hx : Begins x) : Begins (y ++ x) := by
  rcases List.eq_nil_or_concat x with rfl | ⟨x, c, rfl⟩
  · rw [List.append_nil]
    exact hy.1
  · obtain ⟨hplain, hescape, hlast⟩ := hx
    rw [List.concat_eq_append] at *
    refine ⟨?_, ?_, ?_⟩
    · obtain ⟨depth, hafter⟩ := hy.after_append (x ++ [c])
      rw [hafter, Inside.after_fst _ _ 0, hplain]
    · obtain ⟨depth, hafter⟩ := hy.after_append x
      rw [List.dropLast_concat] at hescape
      rwa [← List.append_assoc, List.dropLast_concat, hafter, Inside.after_fst _ _ 0]
    · rw [← List.append_assoc, List.getLast?_concat]
      rwa [List.getLast?_concat] at hlast

/-- Behind a word the arguments are read afresh. -/
theorem fresh_word (hx : Begins x) (hu : ∀ c ∈ u, isMild c = true) :
    Fresh (x ++ (u ++ ['('])) := by
  have hplain := after_word hx.1 hu []
  have hbefore : (Inside.after .plain 0 (x ++ u)).1 = .plain := after_mild hx.1 hu
  rw [← List.append_assoc] at hplain ⊢
  refine fresh_of_last (.inr (.inl rfl)) ?_ ?_
  · rw [hbefore]
    simp
  · rw [hplain]
    rfl

/-- Behind the brackets of a function the value is read afresh. -/
theorem fresh_function (hx : Begins x) (hu : ∀ c ∈ u, isMild c = true) (hinner : Whole true inner) :
    Fresh (x ++ (u ++ '(' :: (inner ++ [')']))) := by
  have hbefore := after_word hx.1 hu inner
  rw [after_self hinner] at hbefore
  have hplain := after_word hx.1 hu (inner ++ [')'])
  rw [Inside.after_whole hinner (by simp), Inside.after_plain (by simp), if_neg (by decide),
    if_neg (by decide), if_neg (by decide), if_pos (by simp)] at hplain
  have htext : x ++ (u ++ '(' :: (inner ++ [')'])) = x ++ (u ++ '(' :: inner) ++ [')'] := by simp
  rw [htext] at hplain ⊢
  refine fresh_of_last (.inr (.inr rfl)) ?_ ?_
  · rw [hbefore]
    simp
  · rw [hplain]
    rfl

/-- Behind a string the value is read afresh. -/
theorem Fresh.string (hy : Fresh y) (hx : Whole true x) (hq : isQuote q = true)
    (hurl : StringBody q url) : Fresh (y ++ (x ++ q :: (url ++ [q]))) := by
  have hbefore : ∀ k, ∃ depth, Inside.after .plain 0 (y ++ (x ++ q :: k)) =
      Inside.after (.string q []) depth k := by
    intro k
    obtain ⟨depth, hafter⟩ := hy.after_append (x ++ q :: k)
    refine ⟨depth, ?_⟩
    rw [hafter, Inside.after_whole hx (head?_ne_of_isQuote hq k), Inside.after_plain, if_pos hq]
    rintro rfl
    cases hq
  have htext : y ++ (x ++ q :: (url ++ [q])) = y ++ (x ++ q :: url) ++ [q] := by simp
  obtain ⟨depth, hopen⟩ := hbefore url
  obtain ⟨depth', hclosed⟩ := hbefore (url ++ [q])
  rw [Inside.after_stringBody hq hurl] at hclosed
  rw [htext] at hclosed ⊢
  refine fresh_of_last (.inl hq) ?_ ?_
  · rw [hopen, Inside.after_stringBody_self hurl]
    simp
  · rw [hclosed]
    rfl

/-- A call is a word and an argument made of whole tokens, in brackets. -/
theorem CallForm.exists_function (h : CallForm at₀ s a t) (hclosed : a.Enclosed) :
    ∃ u inner, a.raw = u ++ '(' :: (inner ++ [')']) ∧ (∀ c ∈ u, isMild c = true) ∧
      Whole true inner := by
  cases h with
  | @quoted word gap url gap' _ q named gaps quote first gaps' =>
    obtain ⟨u, rfl, hu⟩ := exists_bracket_of_call named
    have hurl : Whole true (q :: (url ++ q :: gap')) :=
      .string quote hclosed trivial (whole_of_mild (mild_of_blanks gaps'))
    exact ⟨u, gap ++ q :: (url ++ q :: gap'), by simp, hu,
      made_of_mild (fun _ hc => by cases hc) (mild_of_blanks gaps) hurl⟩
  | @bare word gap url gap' _ named gaps plain gaps' empty =>
    obtain ⟨u, rfl, hu⟩ := exists_bracket_of_call named
    have hurl : Whole true url := hclosed
    have htail : Whole true (url ++ gap') :=
      hurl.append (whole_of_mild (mild_of_blanks gaps')) (head?_ne_of_isMild (mild_of_blanks gaps'))
    exact ⟨u, gap ++ (url ++ gap'), by simp, hu,
      made_of_mild (fun _ hc => by cases hc) (mild_of_blanks gaps) htail⟩

theorem Fresh.call (hy : Fresh y) (hx : Begins x) (h : CallForm at₀ s a t) (hclosed : a.Enclosed) :
    Fresh (y ++ (x ++ a.raw)) := by
  obtain ⟨u, inner, hraw, hu, hinner⟩ := h.exists_function hclosed
  rw [hraw, ← List.append_assoc]
  exact fresh_function (hy.begins_append hx) hu hinner

/-- A call among arguments is made of whole tokens. -/
theorem CallForm.whole (h : CallForm at₀ s a t) (hclosed : a.Enclosed) (hx : Whole true x)
    (hk : Whole true k) : Whole true (x ++ (a.raw ++ k)) := by
  obtain ⟨u, inner, hraw, hu, hinner⟩ := h.exists_function hclosed
  have hbrackets : Whole true ('(' :: (inner ++ ')' :: k)) :=
    .bracketed (.inl rfl) (.inl rfl) trivial hinner hk
  have hcall : Whole true (u ++ '(' :: (inner ++ ')' :: k)) :=
    made_of_mild (fun _ hc => by cases hc) hu hbrackets
  have hhead : (u ++ '(' :: (inner ++ ')' :: k)).head? ≠ some '*' :=
    head?_append_ne (by simp) (head?_ne_of_isMild hu)
  have hall : Whole true (x ++ (u ++ '(' :: (inner ++ ')' :: k))) := hx.append hcall hhead
  rw [hraw]
  simpa using hall

/-- The references among the arguments of an image set are its own strings and arguments of calls.
Tokens behind the arguments make tokens with those in front of them. -/
theorem SetArguments.proper (begins : Begins x) (named : IsSetWord word) (h : SetArguments n u refs)
    (hn : n = (x ++ (word ++ inner)).length) (hwhole : ∀ t, Whole true t → Whole true (inner ++ t))
    (hfresh : Fresh (x ++ (word ++ inner))) :
    Whole true (inner ++ u) ∧ ∀ k, ∀ a ∈ refs,
      IsUrlArgument 0 (x ++ (word ++ (inner ++ (u ++ k)))) a ∨
        IsDirect 0 (x ++ (word ++ (inner ++ (u ++ k)))) a := by
  induction h generalizing inner with
  | done seen => exact ⟨hwhole _ (whole_of_seen seen), fun k a ha => by cases ha⟩
  | @string at₀ x' url t q refs seen unquoted quote closed next silent later ih =>
    have hx' : Whole true x' := whole_of_seen seen
    have hfresh' := hfresh.string hx' quote closed
    simp only [List.append_assoc] at hfresh'
    obtain ⟨hall, hlater⟩ := @ih (inner ++ (x' ++ q :: (url ++ [q])))
      (by simp only [hn, List.length_append, List.length_cons, List.length_nil]; omega)
      (fun t ht => by
        have hstring : Whole true (q :: (url ++ q :: t)) := .string quote closed trivial ht
        simpa using hwhole _ (hx'.append hstring (head?_ne_of_isQuote quote _)))
      (by simpa using hfresh')
    refine ⟨by simpa using hall, fun k a ha => ?_⟩
    rcases List.mem_cons.1 ha with rfl | ha
    · right
      have hdirect := @IsSetString.mk (fun inner _ _ => Whole true inner) 0 x word (inner ++ x') url
        (t ++ k) q begins named quote closed (hwhole _ hx')
      have hplace : at₀ + x'.length = 0 + (x ++ (word ++ (inner ++ x'))).length := by
        simp only [hn, List.length_append]
        omega
      rw [hplace]
      simpa using hdirect
    · simpa using hlater k a ha
  | @call at₀ x' s t a refs seen unquoted begins' silent form closed next plain later ih =>
    have hx' : Whole true x' := whole_of_seen seen
    have hs := form.raw_append
    have hfresh' := hfresh.call begins' form closed
    obtain ⟨hall, hlater⟩ := @ih (inner ++ (x' ++ a.raw))
      (by simp only [hn, List.length_append]; omega)
      (fun t ht => by simpa using hwhole _ (form.whole closed hx' ht))
      (by simpa using hfresh')
    refine ⟨by simpa [← hs] using hall, fun k b hb => ?_⟩
    rcases List.mem_cons.1 hb with rfl | hb
    · left
      refine ⟨x ++ (word ++ (inner ++ x')), s ++ k, t ++ k, by simp, ?_, ?_, closed⟩
      · simpa using hfresh.begins_append begins'
      · have hplace : at₀ + x'.length = 0 + (x ++ (word ++ (inner ++ x'))).length := by
          simp only [hn, List.length_append]
          omega
        rw [← hplace]
        exact form.append k
    · simpa [← hs] using hlater k b hb

/-- The references of a candid value are what they are for the reader of sheets. -/
theorem Candid.proper (h : Candid n s refs) (hn : n = y.length) (hy : Fresh y) :
    ∀ a ∈ refs, IsUrlArgument 0 (y ++ s) a ∨ IsDirect 0 (y ++ s) a := by
  induction h generalizing y with
  | done => simp
  | @call at₀ x s t a refs begins silent form closed plain later ih =>
    have hlater := ih (y := y ++ (x ++ a.raw)) (by simp only [hn, List.length_append]; omega)
      (hy.call begins form closed)
    intro b hb
    rcases List.mem_cons.1 hb with rfl | hb
    · left
      refine ⟨y ++ x, s, t, by simp, hy.begins_append begins, ?_, closed⟩
      rwa [Nat.zero_add, List.length_append, ← hn]
    · simpa [← form.raw_append] using hlater b hb
  | @set at₀ x word u t refs refs' begins silent named level arguments later ih =>
    have hbegins := hy.begins_append begins
    obtain ⟨v, rfl, hv⟩ := named.exists_bracket
    have hplace : at₀ + (x ++ (v ++ ['('])).length = (y ++ x ++ (v ++ ['('] ++ [])).length := by
      simp only [hn, List.length_append, List.length_nil]
      omega
    have hfresh : Fresh (y ++ x ++ (v ++ ['('] ++ [])) := by simpa using fresh_word hbegins hv
    obtain ⟨hwhole, hrefs⟩ := arguments.proper hbegins named hplace (fun t ht => ht) hfresh
    have hlater := ih (y := y ++ (x ++ (v ++ '(' :: (u ++ [')']))))
      (by simp only [hn, List.length_append, List.length_cons, List.length_nil]; omega)
      (by simpa using fresh_function hbegins hv hwhole)
    intro a ha
    rcases List.mem_append.1 ha with ha | ha
    · simpa using hrefs (')' :: t) a ha
    · simpa using hlater a ha

/-- In a candid value the references are found, each once and in order, and nothing else is; each is
the argument of a `url()` outside strings and comments, or a string that is itself an argument of an
image set; and anchoring replaces the relative addresses among them and leaves the rest of the value
as it is. -/
theorem findAll_of_candid (h : Candid 0 value refs) :
    findAll value = refs ∧ (∀ a ∈ refs, IsUrlArgument 0 value a ∨ IsDirect 0 value a) ∧
      ∀ origin out, anchorReferences value origin = .ok out →
        Substituted origin 0 (refs.filter isAnchorable) value out := by
  have hrefs := h.findAll_eq
  refine ⟨hrefs, h.proper rfl fresh_nil, fun origin out hout => ?_⟩
  have hfound : refs.reverse.foldlM (anchorIn origin) ([] ++ value) = .ok out := by
    rw [← hrefs]
    exact hout
  obtain ⟨o, rfl, hsub⟩ := substituted_of_foldlM []
    (fun a ha => inPlace_of_mem_findAll (hrefs ▸ ha)) (fun a _ => Nat.zero_le _) h.listed.sorted
    hfound
  exact hsub

/-- A string and a comment, a call, and an image set with a string, a function, and a call. -/
theorem findAll_of_candid_set :
    let value := "\"x)\" /* c */ url(a) image-set(\"b\" type(d), Url('#e') 2x)".toList
    let refs : List AssetRef := [⟨"url(a)".toList, ['a'], none, 17, 18⟩,
      ⟨"\"b\"".toList, ['b'], some '\x22', 31, 32⟩,
      ⟨"Url('#e')".toList, "#e".toList, some '\x27', 48, 50⟩]
    let out :=
      "\"x)\" /* c */ url(http://h/a) image-set(\"http://h/b\" type(d), Url('#e') 2x)".toList
    Candid 0 value refs ∧ anchorReferences value "http://h/s".toList = .ok out ∧
      findAll value = refs ∧ (∀ a ∈ refs, IsUrlArgument 0 value a ∨ IsDirect 0 value a) ∧
      Substituted "http://h/s".toList 0 (refs.filter isAnchorable) value out := by
  intro value refs out
  have hmild : ∀ {x k : Text}, (∀ c ∈ x, isMild c = true) → Seen k → Seen (x ++ k) :=
    fun hx hk => made_of_mild (fun _ hc => by cases hc) hx hk
  have hnil : Seen [] := .nil
  have htail : Seen " 2x".toList := hmild (x := " 2x".toList) (by decide) hnil
  have hfunction : Seen " type(d), ".toList :=
    hmild (x := " type".toList) (by decide) (.bracketed (.inl rfl) (.inl rfl) trivial
      (hmild (x := ['d']) (by decide) hnil) (hmild (x := ", ".toList) (by decide) hnil))
  have harguments : SetArguments 30 "\"b\" type(d), Url('#e') 2x".toList refs.tail :=
    @SetArguments.string 30 [] ['b'] " type(d), Url('#e') 2x".toList '\x22' _ hnil (by simp) rfl
      (.chars (s := ['b']) (by decide) .nil) (by decide) (by decide)
      (@SetArguments.call 33 " type(d), ".toList "Url('#e') 2x".toList " 2x".toList
        ⟨"Url('#e')".toList, "#e".toList, some '\x27', 48, 50⟩ _ hfunction (by decide) (by decide)
        (by decide) (form_of_urlCall? rfl)
        (StringBody.chars (s := "#e".toList) (by decide) .nil) (by rintro _ ⟨⟩; decide)
        (by decide) (.done htail (by decide) (by decide)))
  have hset : Candid 19 " image-set(\"b\" type(d), Url('#e') 2x)".toList refs.tail :=
    @Candid.set 19 [' '] "image-set(".toList "\"b\" type(d), Url('#e') 2x".toList [] _ _ (by decide)
      (by decide) (by decide) (by decide) harguments (.done (by decide))
  have hcandid : Candid 0 value refs :=
    @Candid.call 0 "\"x)\" /* c */ ".toList "url(a) image-set(\"b\" type(d), Url('#e') 2x)".toList
      " image-set(\"b\" type(d), Url('#e') 2x)".toList ⟨"url(a)".toList, ['a'], none, 17, 18⟩ _
      (by decide) (by decide) (form_of_urlCall? rfl) (whole_of_mild (u := ['a']) (by decide))
      (by decide) hset
  have hout : anchorReferences value "http://h/s".toList = .ok out := rfl
  obtain ⟨hfound, hproper, hsub⟩ := findAll_of_candid hcandid
  exact ⟨hcandid, hout, hfound, hproper, hsub _ _ hout⟩

/-- A string of an image set is found although it is the argument of another function there, and is
rewritten. -/
theorem argument_of_function_found :
    let value := "image-set(\"a.avif\" type(\"image/avif\"), \"a.png\")".toList
    let a : AssetRef := ⟨"\"image/avif\"".toList, "image/avif".toList, some '\x22', 25, 35⟩
    (∃ t, Sheet.parse ("p\x7bv:".toList ++ value ++ ['\x7d']) = .ok t ∧
      (Node.declarations t.children).map Declaration.value = [value]) ∧
    a ∈ findAll value ∧ ¬ (IsUrlArgument 0 value a ∨ IsDirect 0 value a) ∧
    anchorReferences value "http://h/s".toList = .ok
      "image-set(\"http://h/a.avif\" type(\"http://h/image/avif\"), \"http://h/a.png\")".toList := by
  intro value a
  have hparse : Sheet.parse ("p\x7bv:".toList ++ value ++ ['\x7d']) =
      .ok ⟨[.block [] (.rule ['p'] []) [.declaration ⟨['v'], value, [], [':'], [], false⟩] []], [],
        none⟩ :=
    parse_eq_ok_iff.2 ⟨rfl, .cons rfl (.cons rfl (.cons rfl (.cons rfl (.nil []))))⟩
  refine ⟨⟨_, hparse, rfl⟩, by decide, ?_, rfl⟩
  rintro (⟨front, t, rest, -, -, form, -⟩ | hdirect)
  · exact raw_head?_of_form form (q := '\x22') rfl rfl
  · generalize hv : value = v at hdirect
    generalize ha : a = b at hdirect
    cases hdirect with
    | @mk front word inner url rest q begins named quote closed whole =>
      obtain ⟨-, -, -, hstart, -⟩ := AssetRef.mk.inj ha
      simp only [List.length_append] at hstart
      -- the only image set in front of the string begins at the beginning
      have hfound : imageSet? (value.drop front.length) =
          some (inner ++ q :: (url ++ q :: rest)) := by
        rw [hv, List.drop_left, imageSet?_of_isSetWord named]
      have hnone : ∀ n < 25, n ≠ 0 → imageSet? (value.drop n) = none := by decide
      have hfront : front = [] := by
        by_contra hfront
        rw [hnone _ (by omega) (List.length_pos_iff.2 hfront).ne'] at hfound
        cases hfound
      subst hfront
      have hrest : "\"a.avif\" type(\"image/avif\"), \"a.png\")".toList =
          inner ++ q :: (url ++ q :: rest) := Option.some.inj hfound
      have hword : word.length = 10 := by
        have hlength := congrArg List.length hv
        rw [← hrest] at hlength
        simpa [value] using hlength.symm
      have hinner : inner = "\"a.avif\" type(".toList := by
        have htake := congrArg (List.take 14) hrest
        rw [List.take_left' (by simp only [List.length_nil] at hstart; omega)] at htake
        exact htake.symm
      -- a bracket is open in front of the string
      have hopen := congrArg Prod.snd (after_self whole 0)
      rw [hinner] at hopen
      cases hopen

end AssetRef

end StyleSplice
