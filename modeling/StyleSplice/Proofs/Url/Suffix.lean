import StyleSplice.Proofs.Url.Parts

/-!
# Queries and fragments of references

What stands behind the path of a reference moves with it to the address that the reference is
resolved to: the query and the fragment are neither read nor changed on the way. Only the mark of an
empty one is lost, as an empty part is taken for one that is not there.
-/

namespace StyleSplice

/-- A query and a fragment behind a path, each of them there or not. -/
structure UrlSuffix where
  query : Option Text
  fragment : Option Text
  /-- The query ends where the fragment begins. -/
  query_closed : ∀ s ∈ query, '#' ∉ s
  query_whole : ∀ s ∈ query, ∀ c ∈ s, UrlParts.isDropped c = false
  fragment_whole : ∀ s ∈ fragment, ∀ c ∈ s, UrlParts.isDropped c = false

namespace UrlSuffix

/-- The suffix with the marks in front of its parts. -/
def text (q : UrlSuffix) : Text :=
  (q.query.elim [] fun s => '?' :: s) ++ q.fragment.elim [] fun s => '#' :: s

/-- No query and no fragment. -/
def empty : UrlSuffix := ⟨none, none, by simp, by simp, by simp⟩

/-- The suffix without its empty parts. -/
def filled (q : UrlSuffix) : UrlSuffix where
  query := q.query.filter fun s => !s.isEmpty
  fragment := q.fragment.filter fun s => !s.isEmpty
  query_closed s hs := q.query_closed s (Option.mem_filter_iff.1 hs).1
  query_whole s hs := q.query_whole s (Option.mem_filter_iff.1 hs).1
  fragment_whole s hs := q.fragment_whole s (Option.mem_filter_iff.1 hs).1

variable (q : UrlSuffix)

@[simp] theorem text_empty : empty.text = [] := rfl

/-- The query as it is found behind a path: an empty text if there is none. -/
def queryText : Text := q.query.getD []

/-- The fragment as it is found behind a path. -/
def fragmentText : Text := q.fragment.getD []

theorem mark_of_head? {c : Char} (h : q.text.head? = some c) : c = '?' ∨ c = '#' := by
  cases hquery : q.query with
  | some s =>
    rw [text, hquery] at h
    exact .inl (Option.some.inj h).symm
  | none =>
    cases hfragment : q.fragment with
    | some s =>
      rw [text, hquery, hfragment] at h
      exact .inr (Option.some.inj h).symm
    | none =>
      rw [text, hquery, hfragment] at h
      cases h

theorem isDropped_of_mem_text {c : Char} (h : c ∈ q.text) : UrlParts.isDropped c = false := by
  rcases List.mem_append.1 h with h | h
  · cases hquery : q.query with
    | none => simp [hquery] at h
    | some s =>
      rw [hquery] at h
      rcases List.mem_cons.1 h with rfl | h
      · rfl
      · exact q.query_whole s hquery c h
  · cases hfragment : q.fragment with
    | none => simp [hfragment] at h
    | some s =>
      rw [hfragment] at h
      rcases List.mem_cons.1 h with rfl | h
      · rfl
      · exact q.fragment_whole s hfragment c h

/-- The marks of empty parts are all that can be lost. -/
theorem text_filled : q.filled.text =
    (if q.queryText.isEmpty then [] else '?' :: q.queryText) ++
      if q.fragmentText.isEmpty then [] else '#' :: q.fragmentText := by
  have hpart : ∀ (o : Option Text) (mark : Char),
      ((o.filter fun s => !s.isEmpty).elim [] fun s => mark :: s) =
        if (o.getD []).isEmpty then [] else mark :: o.getD [] := by
    intro o mark
    cases o with
    | none => rfl
    | some s => cases s <;> rfl
  exact congrArg₂ (· ++ ·) (hpart q.query '?') (hpart q.fragment '#')

theorem text_filled_eq_iff : q.filled.text = q.text ↔ q.query ≠ some [] ∧ q.fragment ≠ some [] := by
  rw [text_filled]
  obtain ⟨query, fragment, -, -, -⟩ := q
  rcases query with _ | _ | ⟨c, s⟩ <;> rcases fragment with _ | _ | ⟨d, t⟩ <;>
    simp [text, queryText, fragmentText]

end UrlSuffix

namespace UrlParts

variable {p : Text}

/-- The marks are found where the parts of the suffix begin. -/
theorem splitTail_append (hquery : '?' ∉ p) (hfragment : '#' ∉ p) (q : UrlSuffix) :
    splitTail (p ++ q.text) = (p, q.queryText, q.fragmentText) := by
  have hfront : cutMark '?' (p ++ q.query.elim [] fun s => '?' :: s) = (p, q.queryText) := by
    unfold UrlSuffix.queryText
    cases q.query with
    | none => rw [Option.elim_none, List.append_nil, cutMark_of_notMem hquery]; rfl
    | some s => exact cutMark_append hquery s
  have hclosed : '#' ∉ p ++ q.query.elim [] fun s => '?' :: s := by
    intro hm
    rcases List.mem_append.1 hm with hm | hm
    · exact hfragment hm
    · cases hq : q.query with
      | none => simp [hq] at hm
      | some s =>
        rw [hq] at hm
        exact q.query_closed s hq (List.mem_of_ne_of_mem (by decide) hm)
  have hback : cutMark '#' (p ++ q.text) =
      (p ++ q.query.elim [] fun s => '?' :: s, q.fragmentText) := by
    rw [UrlSuffix.text, ← List.append_assoc]
    unfold UrlSuffix.fragmentText
    cases q.fragment with
    | none => rw [Option.elim_none, List.append_nil, cutMark_of_notMem hclosed]; rfl
    | some s => exact cutMark_append hclosed s
  unfold splitTail
  rw [hback]
  dsimp only
  rw [hfront]

/-- The colon of a scheme does not stand in a suffix, as the mark in front is no part of a scheme. -/
theorem exists_of_scheme_append (q : UrlSuffix) {w rest : Text}
    (h : p ++ q.text = w ++ ':' :: rest) (hw : ∀ c ∈ w, isSchemePart c = true) :
    ∃ rest', p = w ++ ':' :: rest' := by
  -- The suffix begins inside the scheme, or behind its colon.
  rcases List.append_eq_append_iff.1 h with ⟨u, rfl, hq⟩ | ⟨u, rfl, hq⟩
  · cases u with
    | nil => rcases q.mark_of_head? (by rw [hq]; rfl) with hc | hc <;> cases hc
    | cons c u =>
      have hpart := hw c (by simp)
      rcases q.mark_of_head? (by rw [hq]; rfl) with rfl | rfl <;> cases hpart
  · cases u with
    | nil =>
      have hhead : q.text.head? = some ':' := by
        rw [← List.nil_append q.text, ← hq]
        rfl
      rcases q.mark_of_head? hhead with hc | hc <;> cases hc
    | cons c u =>
      obtain ⟨rfl, -⟩ := List.cons_eq_cons.1 hq
      exact ⟨u, rfl⟩

/-- A suffix does not make a scheme of what is none. -/
theorem cutScheme?_append (h : cutScheme? p = none) (q : UrlSuffix) :
    cutScheme? (p ++ q.text) = none := by
  cases hcut : cutScheme? (p ++ q.text) with
  | none => rfl
  | some x =>
    obtain ⟨c, w, htext, hscheme, hc, hw⟩ := cutScheme?_eq_some_iff.1 hcut
    have hfirst := isSchemeChar_of_isAlpha hc
    obtain ⟨rest, hp⟩ := exists_of_scheme_append q (w := c :: w) htext
      (List.forall_mem_cons.2 ⟨isSchemePart_of_isSchemeChar hfirst,
        fun x hx => isSchemePart_of_isSchemeChar (hw x hx)⟩)
    rw [cutScheme?_eq_some_iff.2 ⟨c, w, hp, hscheme, hc, hw⟩] at h
    cases h

/-- The suffix stands behind what follows the authority. -/
theorem splitAuthority_append (q : UrlSuffix) : splitAuthority (p ++ q.text) =
    ((splitAuthority p).1, (splitAuthority p).2 ++ q.text) := by
  rcases authority_cases p with hp | ⟨authority, behind, rfl, hauthority, hbehind⟩
  · have happend : startsSlashed (p ++ q.text) = false := by
      refine Bool.eq_false_iff.2 fun hslashed => ?_
      obtain ⟨rest, hrest⟩ := startsSlashed_iff.1 hslashed
      have hmark : q.text.head? ≠ some '/' := fun hhead => by
        rcases q.mark_of_head? hhead with hc | hc <;> cases hc
      rcases p with _ | ⟨c, _ | ⟨d, p⟩⟩
      · exact hmark (congrArg List.head? hrest)
      · exact hmark (congrArg (fun s => (List.drop 1 s).head?) hrest)
      · obtain ⟨hc, hd⟩ := List.cons_eq_cons.1 hrest
        rw [hc, (List.cons_eq_cons.1 hd).1] at hp
        cases hp
    rw [splitAuthority_of_not_slashed hp, splitAuthority_of_not_slashed happend]
  · rw [List.cons_append, List.cons_append, List.append_assoc,
      splitAuthority_slashed hauthority hbehind,
      splitAuthority_slashed hauthority (Text.clear_append hbehind fun c hc => ?_)]
    rcases q.mark_of_head? hc with rfl | rfl <;> rfl

end UrlParts

theorem isAbsolute_append {p : Text} (h : isAbsolute p = false) (q : UrlSuffix) :
    isAbsolute (p ++ q.text) = false := by
  refine Bool.eq_false_iff.2 fun habsolute => ?_
  obtain ⟨rest, hrest⟩ := isAbsolute_iff.1 habsolute
  obtain ⟨c, w, htext, hc, hw⟩ := afterScheme?_eq_some_iff.1 hrest
  have hfirst : isSchemePart c = true := by simp [isSchemePart, hc]
  obtain ⟨rest', hp⟩ := UrlParts.exists_of_scheme_append q (w := c :: w) htext
    (List.forall_mem_cons.2 ⟨hfirst, hw⟩)
  rw [isAbsolute_iff.2 ⟨rest', afterScheme?_eq_some_iff.2 ⟨c, w, hp, hc, hw⟩⟩] at h
  cases h

/-- A reference that holds the name of a place below that of its document: it has no scheme, and
something is left of it besides two slashes and what is dropped from its front. -/
structure RelativeReference (p : Text) : Prop where
  relative : isAbsolute p = false
  schemeless : UrlParts.cutScheme? (UrlParts.cleaned p) = none
  named : UrlParts.cleaned p ≠ [] ∧ UrlParts.cleaned p ≠ "//".toList
  plain : ∀ c ∈ p, c ≠ '?' ∧ c ≠ '#' ∧ c ≠ ';'

namespace UrlParts

variable {p : Text}

theorem mem_of_mem_cleaned {c : Char} (h : c ∈ cleaned p) : c ∈ p :=
  (List.dropWhile_suffix _).subset (List.mem_filter.1 h).1

/-- A reference is read alike with every suffix; only the query and the fragment differ. -/
theorem parse_suffixed (hp : RelativeReference p) (scheme : Text) :
    (∃ f, ∀ q : UrlSuffix, parse (p ++ q.text) scheme = .error f) ∨
      ∃ authority path, (authority ≠ [] ∨ path ≠ []) ∧ ';' ∉ path ∧ ∀ q : UrlSuffix,
        parse (p ++ q.text) scheme =
          .ok { scheme, authority, path, query := q.queryText, fragment := q.fragmentText } := by
  obtain ⟨authority, path, hsplit, hnamed, hpath⟩ : ∃ authority path,
      splitAuthority (cleaned p) = (authority, path) ∧ (authority ≠ [] ∨ path ≠ []) ∧
        ∀ c ∈ path, c ∈ p := by
    rcases authority_cases (cleaned p) with hs | ⟨authority, behind, hs, hauthority, hbehind⟩
    · exact ⟨[], cleaned p, splitAuthority_of_not_slashed hs, .inr hp.named.1,
        fun c hc => mem_of_mem_cleaned hc⟩
    · refine ⟨authority, behind, by rw [hs, splitAuthority_slashed hauthority hbehind], ?_,
        fun c hc => mem_of_mem_cleaned (by rw [hs]; simp [hc])⟩
      rw [← not_and_or]
      rintro ⟨rfl, rfl⟩
      exact hp.named.2 hs
  have hread : ∀ q : UrlSuffix, parse (p ++ q.text) scheme =
      (checkBrackets authority).bind fun _ =>
        if authority.any hidesDelimiter then .error (.delimiters authority)
        else .ok { scheme, authority, path, query := q.queryText, fragment := q.fragmentText } := by
    intro q
    have htail : splitTail (path ++ q.text) = (path, q.queryText, q.fragmentText) :=
      splitTail_append (fun hm => (hp.plain _ (hpath _ hm)).1 rfl)
        (fun hm => (hp.plain _ (hpath _ hm)).2.1 rfl) q
    unfold parse
    rw [cleaned_append hp.named.1 fun c hc => q.isDropped_of_mem_text hc,
      cutScheme?_append hp.schemeless, Option.getD_none]
    dsimp only
    rw [splitAuthority_append, hsplit]
    dsimp only
    rw [htail]
    cases checkBrackets authority <;> rfl
  cases hbrackets : checkBrackets authority with
  | error f =>
    rw [hbrackets] at hread
    exact .inl ⟨f, hread⟩
  | ok _ =>
    rw [hbrackets] at hread
    by_cases hhides : authority.any hidesDelimiter = true
    · exact .inl ⟨.delimiters authority, fun q => (hread q).trans (if_pos hhides)⟩
    · exact .inr ⟨authority, path, hnamed, fun hm => (hp.plain _ (hpath _ hm)).2.2 rfl,
        fun q => (hread q).trans (if_neg hhides)⟩

/-- An address is written with its query and fragment at the end, each behind its mark. -/
theorem write_append (scheme authority path parameters : Text) (q : UrlSuffix) :
    write ⟨scheme, authority, path, q.queryText, q.fragmentText⟩ parameters =
      write ⟨scheme, authority, path, [], []⟩ parameters ++ q.filled.text := by
  rw [UrlSuffix.text_filled]
  unfold write
  simp only [List.append_assoc, List.isEmpty_nil, if_true, List.append_nil]

theorem join_append {origin : Text} (hp : RelativeReference p) (horigin : WebOrigin (cleaned origin))
    (q : UrlSuffix) : join origin (p ++ q.text) =
      (join origin p).map fun url => url ++ q.filled.text := by
  have hfull : ¬ p.isEmpty = true ∧ ¬ (p ++ q.text).isEmpty = true := by
    have hne : p ≠ [] := by
      rintro rfl
      exact hp.named.1 rfl
    simp [hne]
  have hbase : ¬ origin.isEmpty = true := by simpa using horigin.ne_nil
  cases hb : parse origin with
  | error f =>
    unfold join
    rw [if_neg hbase, if_neg hbase, if_neg hfull.1, if_neg hfull.2, hb]
    rfl
  | ok b =>
    have hweb : IsWebScheme b.scheme := horigin.isWebScheme hb
    rcases parse_suffixed hp b.scheme with ⟨f, hf⟩ | ⟨authority, path, hnamed, hpath, hread⟩
    · have hself := hf .empty
      rw [UrlSuffix.text_empty, List.append_nil] at hself
      unfold join
      rw [if_neg hbase, if_neg hbase, if_neg hfull.1, if_neg hfull.2, hb]
      dsimp only
      rw [hf, hself]
      rfl
    · have hself := hread .empty
      rw [UrlSuffix.text_empty, List.append_nil] at hself
      rw [join_of_parse hb hweb (hread q) hnamed hpath, join_of_parse hb hweb hself hnamed hpath]
      exact congrArg Except.ok (write_append b.scheme _ _ [] q)

end UrlParts

/-- The query and the fragment of a reference are kept as they are when it is resolved against an
address on the web, an empty one apart: its mark is lost. -/
theorem resolveReference_append {p origin : Text} (hp : RelativeReference p)
    (horigin : WebOrigin (UrlParts.cleaned origin)) (q : UrlSuffix) :
    resolveReference (p ++ q.text) origin =
        (resolveReference p origin).map (fun url => url ++ q.filled.text) ∧
      (q.filled.text = q.text ↔ q.query ≠ some [] ∧ q.fragment ≠ some []) := by
  refine ⟨?_, q.text_filled_eq_iff⟩
  rw [resolveReference, resolveReference, isAbsolute_append hp.relative, hp.relative]
  exact UrlParts.join_append hp horigin q

/-- A query that looks like a reference, and a fragment with every mark in it. -/
theorem resolveReference_append_marks :
    RelativeReference "../f.woff".toList ∧ WebOrigin (UrlParts.cleaned "HTTP://h/a/s?x".toList) ∧
      resolveReference "../f.woff?../?a:b//#?#/".toList "HTTP://h/a/s?x".toList =
        .ok "http://h/f.woff?../?a:b//#?#/".toList := by
  have hp : RelativeReference "../f.woff".toList :=
    ⟨by decide, by decide, by decide, by decide⟩
  have horigin : WebOrigin (UrlParts.cleaned "HTTP://h/a/s?x".toList) :=
    ⟨"h/a/s?x".toList, .inl (by decide)⟩
  let q : UrlSuffix :=
    ⟨some "../?a:b//".toList, some "?#/".toList, by decide, by decide, by decide⟩
  exact ⟨hp, horigin, (resolveReference_append hp horigin q).1.trans (by decide)⟩

/-- The mark of an empty query is lost: not all of the suffix is kept. -/
theorem empty_query_dropped :
    RelativeReference "f.eot".toList ∧ WebOrigin "http://h/s".toList ∧
      resolveReference "f.eot".toList "http://h/s".toList = .ok "http://h/f.eot".toList ∧
      resolveReference ("f.eot".toList ++ "?#iefix".toList) "http://h/s".toList ≠
        .ok ("http://h/f.eot".toList ++ "?#iefix".toList) ∧
      resolveReference ("f.eot".toList ++ "?#iefix".toList) "http://h/s".toList =
        .ok "http://h/f.eot#iefix".toList :=
  ⟨⟨by decide, by decide, by decide, by decide⟩, ⟨"h/s".toList, .inl (by decide)⟩, by decide,
    by decide, by decide⟩

end StyleSplice
