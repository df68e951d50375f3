import Mathlib.Data.List.Sort
import StyleSplice.Proofs.Asset.ImageSets
import StyleSplice.Proofs.Asset.Substitution

/-!
# Values whose words mean what they say

In a candid value each word that a finder looks for begins a function, outside strings and comments,
and has arguments that it takes as the reader of sheets does: a call has one address, and an image
set has strings and calls among arguments without quotes. Of such a value exactly the references are
found, and nothing else in it is rewritten.
-/

namespace StyleSplice

namespace AssetRef

variable {at₀ lo mid hi : Nat} {k rest s t u value word x : Text} {a b : AssetRef}
  {q : Char} {refs refs' strs strs' : List AssetRef} {calls calls' : List (AssetRef × Nat × Nat)}

/-- The strings that begin in none of the calls. -/
def uncovered (calls : List (AssetRef × Nat × Nat)) (strs : List AssetRef) : List AssetRef :=
  strs.filter fun a => !calls.any fun x => x.2.1 < a.start && a.start ≤ x.2.2

/-- The references in a part of a value, from `lo` up to `hi`: those of the calls and the uncovered
strings that the finders list there, in the order of their places. -/
structure Listed (lo hi : Nat) (calls : List (AssetRef × Nat × Nat)) (strs refs : List AssetRef) :
    Prop where
  ofCalls : ∀ x ∈ calls, lo ≤ x.2.1 ∧ x.2.1 < x.1.start ∧ x.1.start ≤ x.1.stop ∧ x.1.stop < x.2.2 ∧
    x.2.2 ≤ hi
  ofStrings : ∀ a ∈ strs, lo < a.start ∧ a.start ≤ a.stop ∧ a.stop < hi
  perm : refs.Perm (calls.map Prod.fst ++ uncovered calls strs)
  sorted : refs.Pairwise Before

theorem listed_nil (lo hi : Nat) : Listed lo hi [] [] [] :=
  ⟨by simp, by simp, .nil, .nil⟩

/-- A reference is one of those that the finders list. -/
theorem Listed.bounds (h : Listed lo hi calls strs refs) (ha : a ∈ refs) :
    lo < a.start ∧ a.start ≤ a.stop ∧ a.stop < hi := by
  rcases List.mem_append.1 (h.perm.mem_iff.1 ha) with ha | ha
  · obtain ⟨x, hx, rfl⟩ := List.mem_map.1 ha
    have := h.ofCalls x hx
    omega
  · exact h.ofStrings a (List.mem_filter.1 ha).1

/-- Calls and strings of different parts do not meet. -/
theorem uncovered_append (h : Listed lo mid calls strs refs)
    (h' : Listed mid hi calls' strs' refs') :
    uncovered (calls ++ calls') (strs ++ strs') =
      uncovered calls strs ++ uncovered calls' strs' := by
  rw [uncovered, List.filter_append]
  congr 1
  · refine List.filter_congr fun a ha => ?_
    have hno : (calls'.any fun x => x.2.1 < a.start && a.start ≤ x.2.2) = false := by
      refine List.any_eq_false.2 fun x hx => ?_
      have := h.ofStrings a ha
      have := h'.ofCalls x hx
      simp only [Bool.and_eq_true, decide_eq_true_eq]
      omega
    rw [List.any_append, hno, Bool.or_false]
  · refine List.filter_congr fun a ha => ?_
    have hno : (calls.any fun x => x.2.1 < a.start && a.start ≤ x.2.2) = false := by
      refine List.any_eq_false.2 fun x hx => ?_
      have := h'.ofStrings a ha
      have := h.ofCalls x hx
      simp only [Bool.and_eq_true, decide_eq_true_eq]
      omega
    rw [List.any_append, hno, Bool.false_or]

theorem Listed.append (hlo : lo ≤ mid) (hhi : mid ≤ hi) (h : Listed lo mid calls strs refs)
    (h' : Listed mid hi calls' strs' refs') :
    Listed lo hi (calls ++ calls') (strs ++ strs') (refs ++ refs') where
  ofCalls x hx := by
    rcases List.mem_append.1 hx with hx | hx
    · have := h.ofCalls x hx
      omega
    · have := h'.ofCalls x hx
      omega
  ofStrings a ha := by
    rcases List.mem_append.1 ha with ha | ha
    · have := h.ofStrings a ha
      omega
    · have := h'.ofStrings a ha
      omega
  perm := by
    rw [uncovered_append h h', List.map_append]
    refine (h.perm.append h'.perm).trans ?_
    simp only [List.append_assoc]
    refine List.Perm.append_left _ ?_
    rw [← List.append_assoc, ← List.append_assoc]
    exact List.perm_append_comm.append_right _
  sorted := by
    refine List.pairwise_append.2 ⟨h.sorted, h'.sorted, fun a ha b hb => ?_⟩
    have := h.bounds ha
    have := h'.bounds hb
    exact ⟨by omega, by omega⟩

/-- What stands behind a call makes no difference to it. -/
theorem CallForm.append (h : CallForm at₀ s a t) (k : Text) : CallForm at₀ (s ++ k) a (t ++ k) := by
  cases h with
  | quoted named gaps quote first gaps' =>
    simpa using @CallForm.quoted at₀ _ _ _ _ (t ++ k) _ named gaps quote first gaps'
  | bare named gaps plain gaps' empty =>
    simpa using @CallForm.bare at₀ _ _ _ _ (t ++ k) named gaps plain gaps' empty

/-- The arguments of an image set in a text that begins at `at₀`, with the references among them:
strings that end at their next quotes, and calls, with texts without quotes between them in which no
reference begins. -/
inductive SetArguments : Nat → Text → List AssetRef → Prop
  | done {at₀ : Nat} {x : Text} (seen : Seen x) (unquoted : ∀ c ∈ x, isQuote c = false)
    (silent : Silent x []) : SetArguments at₀ x []
  | string {at₀ : Nat} {x url t : Text} {q : Char} {refs : List AssetRef} (seen : Seen x)
    (unquoted : ∀ c ∈ x, isQuote c = false) (quote : isQuote q = true) (closed : StringBody q url)
    (next : q ∉ url) (silent : Silent (x ++ q :: (url ++ [q])) t)
    (later : SetArguments (at₀ + x.length + url.length + 2) t refs) :
    SetArguments at₀ (x ++ q :: (url ++ q :: t))
      (⟨q :: url ++ [q], url, some q, at₀ + x.length + 1, at₀ + x.length + 1 + url.length⟩ :: refs)
  | call {at₀ : Nat} {x s t : Text} {a : AssetRef} {refs : List AssetRef} (seen : Seen x)
    (unquoted : ∀ c ∈ x, isQuote c = false) (begins : Begins x) (silent : Silent x s)
    (form : CallForm (at₀ + x.length) s a t) (closed : a.Enclosed) (next : ∀ q ∈ a.quote, q ∉ a.url)
    (plain : Nowhere imageSet? a.raw t)
    (later : SetArguments (at₀ + x.length + a.raw.length) t refs) :
    SetArguments at₀ (x ++ s) (a :: refs)

/-- A value, or the rest of one from `at₀` on, with its references: every word of a reference in it
begins a function, and behind it stand one address, or the arguments of an image set, and the
bracket that closes them for the reader of sheets and for the finders. -/
inductive Candid : Nat → Text → List AssetRef → Prop
  | done {at₀ : Nat} {x : Text} (silent : Silent x []) : Candid at₀ x []
  | call {at₀ : Nat} {x s t : Text} {a : AssetRef} {refs : List AssetRef} (begins : Begins x)
    (silent : Silent x s) (form : CallForm (at₀ + x.length) s a t) (closed : a.Enclosed)
    (plain : Nowhere imageSet? a.raw t) (later : Candid (at₀ + x.length + a.raw.length) t refs) :
    Candid at₀ (x ++ s) (a :: refs)
  | set {at₀ : Nat} {x word u t : Text} {refs refs' : List AssetRef} (begins : Begins x)
    (silent : Silent x (word ++ (u ++ ')' :: t))) (named : IsSetWord word) (level : Level u)
    (arguments : SetArguments (at₀ + (x ++ word).length) u refs)
    (later : Candid (at₀ + (x ++ (word ++ u)).length + 1) t refs') :
    Candid at₀ (x ++ (word ++ (u ++ ')' :: t))) (refs ++ refs')

theorem CallForm.bounds (h : CallForm at₀ s a t) :
    at₀ < a.start ∧ a.start ≤ a.stop ∧ a.stop < at₀ + a.raw.length := by
  obtain ⟨front, back, hraw, hfront, hback, hstart, hstop⟩ := h.exists_around
  have := List.length_pos_iff.2 hfront
  have := List.length_pos_iff.2 hback
  rw [hraw]
  simp only [List.length_append]
  omega

/-- What the finders list of a call is one reference. Its string, if that is found as well, is
covered. -/
theorem CallForm.listed (h : CallForm at₀ s a t)
    (hstrs : ∀ b ∈ strs, at₀ < b.start ∧ b.start ≤ b.stop ∧ b.stop < at₀ + a.raw.length) :
    Listed at₀ (at₀ + a.raw.length) [(a, at₀, at₀ + a.raw.length)] strs [a] where
  ofCalls x hx := by
    obtain rfl := List.mem_singleton.1 hx
    have := h.bounds
    dsimp only
    omega
  ofStrings := hstrs
  perm := by
    have hnone : uncovered [(a, at₀, at₀ + a.raw.length)] strs = [] := by
      refine List.filter_eq_nil_iff.2 fun b hb => ?_
      have := hstrs b hb
      simp only [List.any_cons, List.any_nil, Bool.or_false, Bool.not_eq_true',
        Bool.and_eq_false_iff, decide_eq_false_iff_not]
      omega
    rw [hnone]
    exact .refl _
  sorted := List.pairwise_singleton _ _

theorem isQuote_of_mild (h : ∀ c ∈ u, isMild c = true) : ∀ c ∈ u, isQuote c = false :=
  fun c hc => (isSingle_iff.1 (isMild_iff.1 (h c hc)).1).1

/-- A call holds at most one string, its address. -/
theorem passable_raw (h : CallForm at₀ s a t) (hnext : ∀ q ∈ a.quote, q ∉ a.url) :
    Passable a.raw := by
  have hopening : ∀ {u gap : Text}, (∀ c ∈ u, isMild c = true) → Text.All isBlank gap →
      Passable (u ++ ['('] ++ gap) := by
    intro u gap hu hgap
    refine ((passable_clear (isQuote_of_mild hu)).append (passable_clear ?_)).append
      (passable_clear (isQuote_of_mild (mild_of_blanks hgap)))
    simp [isQuote]
  have hclosing : ∀ {gap : Text}, Text.All isBlank gap → Passable (gap ++ [')']) := by
    intro gap hgap
    refine (passable_clear (isQuote_of_mild (mild_of_blanks hgap))).append (passable_clear ?_)
    simp [isQuote]
  cases h with
  | @quoted word gap url gap' _ q named gaps quote first gaps' =>
    obtain ⟨u, rfl, hu⟩ := exists_bracket_of_call named
    have hstring := passable_quoted quote (hnext q rfl)
    simpa using ((hopening hu gaps).append hstring).append (hclosing gaps')
  | @bare word gap url gap' _ named gaps plain gaps' empty =>
    obtain ⟨u, rfl, hu⟩ := exists_bracket_of_call named
    have hurl : Passable url := passable_clear fun c hc => (isBareChar_iff.1 (plain c hc)).2.1
    simpa using ((hopening hu gaps).append hurl).append (hclosing gaps')

/-- The strings that are found in a call lie in it. -/
theorem strings_form (h : CallForm at₀ s a t) (hnext : ∀ q ∈ a.quote, q ∉ a.url) :
    ∃ strs, strings at₀ 0 s = strs ++ strings (at₀ + a.raw.length) 0 t ∧
      ∀ b ∈ strs, at₀ < b.start ∧ b.start ≤ b.stop ∧ b.stop < at₀ + a.raw.length := by
  obtain ⟨strs, hstrs⟩ := passable_raw h hnext at₀
  refine ⟨strs, by rw [← h.raw_append, hstrs], fun b hb => ?_⟩
  have hraw := hstrs []
  rw [List.append_nil, strings, List.append_nil] at hraw
  rw [← hraw] at hb
  obtain ⟨hstart, hstop, hplace⟩ := mem_strings hb
  have := hplace.bounds
  omega

/-- A string that is found, and that is in no call, is one reference. -/
theorem listed_string (hlo : lo < a.start) (hle : a.start ≤ a.stop) (hhi : a.stop < hi) :
    Listed lo hi [] [a] [a] :=
  ⟨by simp, by simpa using ⟨hlo, hle, hhi⟩, .refl _, List.pairwise_singleton _ _⟩

/-- What the finders list of the arguments of an image set are the references among them. -/
theorem SetArguments.found (h : SetArguments at₀ u refs) (rest : Text) :
    ∃ calls, urlCalls at₀ 0 (u ++ ')' :: rest) =
        calls ++ urlCalls (at₀ + u.length) 0 (')' :: rest) ∧
      imageSets at₀ 0 (u ++ ')' :: rest) = imageSets (at₀ + u.length) 0 (')' :: rest) ∧
      Listed at₀ (at₀ + u.length) calls (strings at₀ 0 u) refs := by
  induction h with
  | @done at₀ x seen unquoted silent =>
    have hsilent : Silent x (')' :: rest) := silent.barrier isBarrier_closing rest
    have hstrings : strings at₀ 0 (x ++ []) = _ := strings_clear unquoted
    rw [List.append_nil] at hstrings
    rw [urlCalls_nowhere hsilent.1, imageSets_nowhere hsilent.2, hstrings]
    exact ⟨[], rfl, rfl, listed_nil _ _⟩
  | @string at₀ x url t q refs seen unquoted quote closed next silent later ih =>
    obtain ⟨calls, hcalls, hsets, hlisted⟩ := ih
    have hsilent := silent.barrier isBarrier_closing rest
    have hlength : (x ++ q :: (url ++ [q])).length = x.length + url.length + 2 := by
      simp only [List.length_append, List.length_cons, List.length_nil]
      omega
    have htext : x ++ q :: (url ++ q :: t) = x ++ q :: (url ++ [q]) ++ t := by simp
    have hplace : at₀ + (x ++ q :: (url ++ q :: t)).length =
        at₀ + x.length + url.length + 2 + t.length := by
      rw [htext, List.length_append, hlength]
      omega
    have hstrings : strings at₀ 0 (x ++ q :: (url ++ q :: t)) =
        [⟨q :: url ++ [q], url, some q, at₀ + x.length + 1, at₀ + x.length + 1 + url.length⟩] ++
          strings (at₀ + x.length + url.length + 2) 0 t := by
      rw [strings_clear unquoted, strings_quoted quote next]
      rfl
    refine ⟨calls, ?_, ?_, ?_⟩
    · rw [hplace, htext, List.append_assoc, urlCalls_nowhere hsilent.1, hlength, ← hcalls,
        ← Nat.add_assoc, ← Nat.add_assoc]
    · rw [hplace, htext, List.append_assoc, imageSets_nowhere hsilent.2, hlength, ← hsets,
        ← Nat.add_assoc, ← Nat.add_assoc]
    · rw [hstrings, hplace]
      exact (listed_string (by dsimp only; omega) (by dsimp only; omega)
        (by dsimp only; omega)).append (by omega) (by omega) hlisted
  | @call at₀ x s t a refs seen unquoted begins silent form closed next plain later ih =>
    obtain ⟨calls, hcalls, hsets, hlisted⟩ := ih
    have hsilent := silent.barrier isBarrier_closing rest
    have hform := form.append (')' :: rest)
    have hplain := plain.barrier (imageSet?_barrier isBarrier_closing) rest
    obtain ⟨strs, hstrs, hbounds⟩ := strings_form form next
    have hplace : at₀ + (x ++ s).length = at₀ + x.length + a.raw.length + t.length := by
      rw [← form.raw_append, List.length_append, List.length_append]
      omega
    refine ⟨(a, at₀ + x.length, at₀ + x.length + a.raw.length) :: calls, ?_, ?_, ?_⟩
    · rw [hplace, List.append_assoc, urlCalls_nowhere hsilent.1, urlCalls_form hform, hcalls]
      rfl
    · rw [hplace, List.append_assoc, imageSets_nowhere hsilent.2, ← form.raw_append,
        List.append_assoc, imageSets_nowhere hplain, hsets]
    · rw [hplace, strings_clear unquoted, hstrs]
      have hcall := (form.listed hbounds).append (by omega) (by omega) hlisted
      exact (listed_nil at₀ (at₀ + x.length)).append (by omega) (by omega) hcall

/-- In the word of an image set no call begins. -/
theorem nowhere_call_of_isSetWord (named : IsSetWord word) (s : Text) :
    Nowhere (afterWord? "url(".toList) word s := by
  refine nowhere_iff.2 fun v y hword hy => Option.eq_none_iff_forall_not_mem.2 fun r hr => ?_
  obtain ⟨z, hz, hcall⟩ := exists_isWord_of_afterWord? hr
  obtain ⟨u, rfl, hu⟩ := named.exists_bracket
  obtain ⟨c, rfl, hc⟩ := exists_bracket_of_call hcall
  obtain ⟨y, rfl, rfl⟩ : ∃ y', u = v ++ y' ∧ y = y' ++ ['('] := by
    rcases List.append_eq_append_iff.1 hword with ⟨z, rfl, hz⟩ | ⟨z, rfl, rfl⟩
    · cases z with
      | nil => exact ⟨[], by simp, by simpa using hz.symm⟩
      | cons d z =>
        have hnil := (List.append_eq_nil_iff.1 (List.cons_eq_cons.1 hz).2.symm).2
        exact absurd hnil hy
    · exact ⟨z, rfl, rfl⟩
  -- both words would end in the first bracket from there on
  have hmild : ∀ c ∈ y, isMild c = true := fun c hc => hu c (List.mem_append_right v hc)
  have heq : y ++ '(' :: s = c ++ '(' :: r := by simpa using hz
  obtain ⟨rfl, -⟩ := Text.eq_of_notMem (bracket_notMem hmild) (bracket_notMem hc) heq
  exact word_ne_call named hcall (show [] ++ (v ++ y) = v ++ y from rfl)

/-- What the finders list of a candid value are its references. -/
theorem Candid.listed (h : Candid at₀ s refs) :
    Listed at₀ (at₀ + s.length) (urlCalls at₀ 0 s)
      ((imageSets at₀ 0 s).flatMap fun x => strings x.1 0 x.2) refs := by
  induction h with
  | @done at₀ x silent =>
    have hcalls : urlCalls at₀ 0 (x ++ []) = _ := urlCalls_nowhere silent.1
    have hsets : imageSets at₀ 0 (x ++ []) = _ := imageSets_nowhere silent.2
    rw [List.append_nil] at hcalls hsets
    rw [hcalls, hsets]
    exact listed_nil _ _
  | @call at₀ x s t a refs begins silent form closed plain later ih =>
    have hplace : at₀ + (x ++ s).length = at₀ + x.length + a.raw.length + t.length := by
      rw [← form.raw_append, List.length_append, List.length_append]
      omega
    have hsets : imageSets at₀ 0 (x ++ s) = imageSets (at₀ + x.length + a.raw.length) 0 t := by
      rw [imageSets_nowhere silent.2, ← form.raw_append, imageSets_nowhere plain]
    rw [urlCalls_nowhere silent.1, urlCalls_form form, hsets, hplace]
    have hform : Listed _ _ [(a, at₀ + x.length, at₀ + x.length + a.raw.length)] [] [a] :=
      form.listed (by simp)
    have hcall := hform.append (by omega) (by omega) ih
    exact (listed_nil at₀ (at₀ + x.length)).append (by omega) (by omega) hcall
  | @set at₀ x word u t refs refs' begins silent named level arguments later ih =>
    obtain ⟨calls, hcalls, hsets, hlisted⟩ := arguments.found t
    have hfrom : at₀ + (x ++ word).length = at₀ + x.length + word.length := by
      rw [List.length_append, Nat.add_assoc]
    have hto : at₀ + (x ++ (word ++ u)).length + 1 =
        at₀ + x.length + word.length + u.length + 1 := by
      simp only [List.length_append]
      omega
    have hplace : at₀ + (x ++ (word ++ (u ++ ')' :: t))).length =
        at₀ + x.length + word.length + u.length + 1 + t.length := by
      simp only [List.length_append, List.length_cons]
      omega
    rw [hfrom] at hcalls hsets hlisted
    rw [hto] at ih
    have htake : (u ++ ')' :: t).take (closedLength 0 (u ++ ')' :: t)) = u := by
      rw [level.closedLength_eq, closedLength_closing, if_pos rfl, Nat.add_zero, List.take_left]
    have hclosing : ∀ n, urlCalls n 0 (')' :: t) = urlCalls (n + 1) 0 t ∧
        imageSets n 0 (')' :: t) = imageSets (n + 1) 0 t :=
      fun n => ⟨urlCalls_nowhere (x := [')']) ⟨rfl, trivial⟩,
        imageSets_nowhere (x := [')']) ⟨rfl, trivial⟩⟩
    have hword := nowhere_call_of_isSetWord named (u ++ ')' :: t)
    rw [urlCalls_nowhere silent.1, urlCalls_nowhere hword, hcalls, (hclosing _).1,
      imageSets_nowhere silent.2, imageSets_word named, htake, hsets, (hclosing _).2,
      List.flatMap_cons, hplace]
    have hgap := listed_nil (at₀ + x.length + word.length + u.length)
      (at₀ + x.length + word.length + u.length + 1)
    have hrest := hgap.append (Nat.le_succ _) (Nat.le_add_right _ _) ih
    have hset := hlisted.append (Nat.le_add_right _ _) (by omega) hrest
    have hfront := listed_nil at₀ (at₀ + x.length + word.length)
    have hall := hfront.append (by omega) (by omega) hset
    exact hall

/-- The finders find the references of a candid value, each once and in order, and nothing else. -/
theorem Candid.findAll_eq (h : Candid 0 value refs) : findAll value = refs := by
  have hlisted := h.listed
  have hperm : (findAll value).Perm refs := by
    have hfound := findAll_perm value
    rw [imageSetStrings_eq] at hfound
    exact hfound.trans hlisted.perm.symm
  have hsorted : refs.Pairwise fun a b => a.start ≤ b.start :=
    hlisted.sorted.imp fun hab => Nat.le_of_lt hab.1
  have hplaces : (refs.map AssetRef.start).Nodup :=
    List.pairwise_map.2 (hlisted.sorted.imp fun hab => Nat.ne_of_lt hab.1)
  exact hperm.eq_of_pairwise (fun a b ha hb hab hba => List.inj_on_of_nodup_map hplaces
    (hperm.mem_iff.1 ha) hb (Nat.le_antisymm hab hba)) (pairwise_findAll value) hsorted

end AssetRef

end StyleSplice
