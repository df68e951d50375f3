import Mathlib.Data.List.TakeWhile
import Mathlib.Tactic.Tauto
import StyleSplice.Proofs.Sheet.Gaps
import StyleSplice.Proofs.Text.Cuts
import StyleSplice.Url.Target

/-!
# How an address is taken apart

Each cut that takes a part off an address, on texts of which it is known where the part ends: the
characters that do not count, the scheme, the authority, and the query and the fragment behind the
path. From these the parts of a whole address are put together.
-/

namespace StyleSplice

theorem startsSlashed_iff {s : Text} :
    startsSlashed s = true ↔ ∃ rest, s = '/' :: '/' :: rest := by
  rw [startsSlashed, List.isPrefixOf_iff_prefix]
  exact ⟨fun ⟨rest, h⟩ => ⟨rest, h.symm⟩, fun ⟨rest, h⟩ => ⟨rest, h.symm⟩⟩

/-- A text has a scheme if a letter and parts of a scheme stand in front of a colon. -/
theorem afterScheme?_eq_some_iff {s rest : Text} : afterScheme? s = some rest ↔
    ∃ c w, s = c :: (w ++ ':' :: rest) ∧ isAnyLetter c = true ∧ ∀ x ∈ w, isSchemePart x = true := by
  constructor
  · intro h
    match s with
    | [] => cases h
    | c :: r =>
      rw [afterScheme?] at h
      split at h
      · rename_i hc
        split at h
        · rename_i after hafter
          cases h
          refine ⟨c, r.takeWhile isSchemePart, ?_, hc, fun x hx => List.mem_takeWhile_imp hx⟩
          rw [← hafter, List.takeWhile_append_dropWhile]
        · cases h
      · cases h
  · rintro ⟨c, w, rfl, hc, hw⟩
    rw [afterScheme?, if_pos hc, List.dropWhile_append_of_pos hw, List.dropWhile_cons,
      if_neg (by decide)]
    rfl

theorem isAbsolute_iff {s : Text} : isAbsolute s = true ↔ ∃ rest, afterScheme? s = some rest := by
  rw [isAbsolute, Option.isSome_iff_exists]

theorem isAbsolute_of_notMem {s : Text} (h : ':' ∉ s) : isAbsolute s = false := by
  refine Bool.eq_false_iff.2 fun habsolute => ?_
  obtain ⟨rest, hrest⟩ := isAbsolute_iff.1 habsolute
  obtain ⟨c, w, rfl, -, -⟩ := afterScheme?_eq_some_iff.1 hrest
  exact h (by simp)

namespace UrlParts

variable {s t : Text}

/-- The characters that end an authority. -/
def endsAuthority (c : Char) : Bool := c == '/' || c == '?' || c == '#'

theorem cutMark_of_notMem {mark : Char} (h : mark ∉ s) : cutMark mark s = (s, []) := by
  have hcut : Text.cutAt (· == mark) s = none :=
    Text.cutAt_eq_none_iff.2 fun c hc => beq_eq_false_iff_ne.2 fun he => h (he ▸ hc)
  rw [cutMark, hcut]
  rfl

theorem cutMark_append {mark : Char} (h : mark ∉ s) (t : Text) :
    cutMark mark (s ++ mark :: t) = (s, t) := by
  rw [cutMark, Text.cutAt_of_notMem h]
  rfl

theorem without_eq_self (h : ∀ c ∈ s, isDropped c = false) : Text.without isDropped s = s :=
  List.filter_eq_self.2 fun c hc => by rw [h c hc]; rfl

/-- A text that holds no character of those that are dropped, and none at its front of those that
are dropped there, stays as it is. -/
theorem cleaned_eq_self (hfront : Text.Clear isControlOrSpace s)
    (h : ∀ c ∈ s, isDropped c = false) : cleaned s = s := by
  rw [cleaned, Text.trimStart_of_clear hfront, without_eq_self h]

/-- If something is left of a text, then what follows it stays. -/
theorem cleaned_append (hs : cleaned s ≠ []) (ht : ∀ c ∈ t, isDropped c = false) :
    cleaned (s ++ t) = cleaned s ++ t := by
  have hrest : (Text.trimStart isControlOrSpace s).isEmpty = false := by
    refine Bool.eq_false_iff.2 fun hempty => hs ?_
    rw [cleaned, List.isEmpty_iff.1 hempty]
    rfl
  have htrim : Text.trimStart isControlOrSpace (s ++ t) = Text.trimStart isControlOrSpace s ++ t := by
    unfold Text.trimStart at hrest ⊢
    rw [List.dropWhile_append, hrest, if_neg (by simp)]
  unfold cleaned
  rw [htrim]
  unfold Text.without
  rw [List.filter_append, ← Text.without, ← Text.without, without_eq_self ht]

theorem cutScheme?_of_notMem (h : ':' ∉ s) : cutScheme? s = none := by
  have hcut : Text.cutAt (· == ':') s = none :=
    Text.cutAt_eq_none_iff.2 fun c hc => beq_eq_false_iff_ne.2 fun he => h (he ▸ hc)
  rw [cutScheme?, hcut]

theorem cutScheme?_eq_some_iff {scheme rest : Text} : cutScheme? s = some (scheme, rest) ↔
    ∃ c w, s = c :: (w ++ ':' :: rest) ∧ scheme = (c :: w).map Char.toLower ∧ c.isAlpha = true ∧
      ∀ x ∈ w, isSchemeChar x = true := by
  constructor
  · intro h
    unfold cutScheme? at h
    split at h
    · rename_i c w rest' hcut
      split at h
      · rename_i hscheme
        cases h
        obtain ⟨mark, hmark, hs, -⟩ := Text.exists_of_cutAt hcut
        obtain rfl : mark = ':' := by simpa using hmark
        rw [Bool.and_eq_true, List.all_eq_true] at hscheme
        exact ⟨c, w, hs, rfl, hscheme.1, hscheme.2⟩
      · cases h
    · cases h
  · rintro ⟨c, w, rfl, rfl, hc, hw⟩
    have hcolon : ':' ∉ c :: w := by
      intro hm
      rcases List.mem_cons.1 hm with rfl | hm
      · cases hc
      · cases hw ':' hm
    have hcut : Text.cutAt (· == ':') (c :: (w ++ ':' :: rest)) = some (c :: w, rest) :=
      Text.cutAt_of_notMem hcolon rest
    rw [cutScheme?, hcut]
    exact if_pos (by rw [hc, List.all_eq_true.2 hw]; rfl)

theorem isSchemeChar_eq (c : Char) :
    isSchemeChar c = (c.isAlpha || c.isDigit || c == '+' || c == '-' || c == '.') := rfl

theorem isSchemeChar_of_isAlpha {c : Char} (h : c.isAlpha = true) : isSchemeChar c = true := by
  simp [isSchemeChar_eq, h]

theorem isSchemePart_of_isSchemeChar {c : Char} (h : isSchemeChar c = true) :
    isSchemePart c = true := by
  simp only [isSchemeChar_eq, Bool.or_eq_true] at h
  simp only [isSchemePart, isAnyLetter, Bool.or_eq_true]
  tauto

/-- What an address has as its scheme counts as one when case is ignored. -/
theorem afterScheme?_of_cutScheme? {scheme rest : Text} (h : cutScheme? s = some (scheme, rest)) :
    afterScheme? s = some rest := by
  obtain ⟨c, w, hs, -, hc, hw⟩ := cutScheme?_eq_some_iff.1 h
  exact afterScheme?_eq_some_iff.2 ⟨c, w, hs, by simp [isAnyLetter, hc],
    fun x hx => isSchemePart_of_isSchemeChar (hw x hx)⟩

theorem splitAuthority_of_not_slashed (h : startsSlashed s = false) :
    splitAuthority s = ([], s) := by
  unfold splitAuthority
  split
  · cases h
  · rfl

/-- An authority ends where the first character stands that ends it. -/
theorem splitAuthority_slashed {authority : Text}
    (ha : ∀ c ∈ authority, endsAuthority c = false)
    (ht : Text.Clear (fun c => !endsAuthority c) t) :
    splitAuthority ('/' :: '/' :: (authority ++ t)) = (authority, t) := by
  have hall : Text.All (fun c => !endsAuthority c) authority := fun c hc => by simp [ha c hc]
  have htake := Text.leading_of_all hall t
  rw [Text.leading_of_clear ht, List.append_nil] at htake
  have hdrop := Text.trimStart_of_all hall t
  rw [Text.trimStart_of_clear ht] at hdrop
  exact Prod.ext htake hdrop

/-- A text either does not start with two slashes, or has an authority behind them. -/
theorem authority_cases (s : Text) : startsSlashed s = false ∨
    ∃ authority behind, s = '/' :: '/' :: (authority ++ behind) ∧
      (∀ c ∈ authority, endsAuthority c = false) ∧
      Text.Clear (fun c => !endsAuthority c) behind := by
  cases hs : startsSlashed s with
  | false => exact .inl rfl
  | true =>
    obtain ⟨rest, rfl⟩ := startsSlashed_iff.1 hs
    refine .inr ⟨Text.leading (fun c => !endsAuthority c) rest,
      Text.trimStart (fun c => !endsAuthority c) rest, ?_, fun c hc => ?_,
      Text.clear_trimStart _ rest⟩
    · rw [Text.leading_append_trimStart]
    · simpa using Text.all_leading _ rest c hc

theorem splitTail_of_notMem (hfragment : '#' ∉ s) (hquery : '?' ∉ s) :
    splitTail s = (s, [], []) := by
  rw [splitTail, cutMark_of_notMem hfragment]
  dsimp only
  rw [cutMark_of_notMem hquery]

theorem checkBrackets_of_notMem {authority : Text} (hopened : '[' ∉ authority)
    (hclosed : ']' ∉ authority) : checkBrackets authority = .ok () := by
  have ho : authority.contains '[' = false := by simpa using hopened
  have hc : authority.contains ']' = false := by simpa using hclosed
  rw [checkBrackets, ho, hc]
  rfl

/-- The parts of an address are those that the cuts find. -/
theorem parse_eq_ok {scheme given rest authority behind path query fragment : Text}
    (hscheme : (cutScheme? (cleaned s)).getD (given, cleaned s) = (scheme, rest))
    (hauthority : splitAuthority rest = (authority, behind))
    (htail : splitTail behind = (path, query, fragment))
    (hbrackets : checkBrackets authority = .ok ()) (hhides : authority.any hidesDelimiter = false) :
    parse s given = .ok { scheme, authority, path, query, fragment } := by
  unfold parse
  rw [hscheme]
  dsimp only
  rw [hauthority]
  dsimp only
  rw [htail]
  dsimp only
  rw [hbrackets]
  dsimp only
  rw [hhides]
  rfl

/-- Parameters are looked for behind a semicolon only. -/
theorem splitParameters_of_notMem {u : UrlParts} (h : ';' ∉ u.path) :
    u.splitParameters = (u.path, []) := by
  unfold splitParameters
  split
  · split
    · rename_i front last hcut
      obtain ⟨c, hc, hpath⟩ := Text.exists_of_cutLast hcut
      obtain rfl : c = '/' := by simpa using hc
      have hlast : ';' ∉ last := fun hm => h (by rw [hpath]; simp [hm])
      rw [cutMark_of_notMem hlast, hpath]
    · exact cutMark_of_notMem h
  · rfl

/-- The scheme of an address is the one in front of it, or the one that was given. -/
theorem scheme_of_parse {given : Text} {u : UrlParts} (h : parse s given = .ok u) :
    u.scheme = ((cutScheme? (cleaned s)).map Prod.fst).getD given := by
  unfold parse at h
  dsimp only at h
  split at h
  · cases h
  · split at h
    · cases h
    · cases h
      cases cutScheme? (cleaned s) <;> rfl

/-- The two schemes of the web. -/
def IsWebScheme (scheme : Text) : Prop := scheme = "http".toList ∨ scheme = "https".toList

theorem IsWebScheme.known {scheme : Text} (h : IsWebScheme scheme) : scheme.isEmpty = false ∧
    relativeSchemes.contains scheme = true ∧ authoritySchemes.contains scheme = true := by
  rcases h with rfl | rfl <;> decide

/-- A reference with a path or an authority of its own takes what it leaves out from an address on
the web, and its path, if it has no authority, leads on from the path there. -/
theorem join_of_parse {base reference authority path query fragment : Text} {b : UrlParts}
    (hb : parse base = .ok b) (hweb : IsWebScheme b.scheme)
    (hr : parse reference b.scheme = .ok ⟨b.scheme, authority, path, query, fragment⟩)
    (hnamed : authority ≠ [] ∨ path ≠ []) (hpath : ';' ∉ path) :
    join base reference = .ok (write
      { scheme := b.scheme
        authority := if authority.isEmpty then b.authority else authority
        path := if authority.isEmpty then mergePath b.splitParameters.1 path else path
        query, fragment } []) := by
  obtain ⟨hscheme, hrelative, hknows⟩ := hweb.known
  have hbase : ¬ base.isEmpty = true := by
    intro hempty
    rw [List.isEmpty_iff.1 hempty] at hb
    rw [← Except.ok.inj hb] at hscheme
    cases hscheme
  have hreference : ¬ reference.isEmpty = true := by
    intro hempty
    rw [List.isEmpty_iff.1 hempty] at hr
    obtain ⟨-, rfl, rfl, -⟩ := UrlParts.mk.inj (Except.ok.inj hr)
    rcases hnamed with hne | hne <;> exact hne rfl
  unfold join
  rw [if_neg hbase, if_neg hreference, hb]
  dsimp only
  rw [hr]
  dsimp only
  rw [splitParameters_of_notMem (u := ⟨b.scheme, authority, path, query, fragment⟩) hpath]
  dsimp only
  rw [if_neg (by simpa using hrelative), hknows]
  cases authority with
  | cons c authority => rfl
  | nil =>
    have hne : path.isEmpty = false := by simpa using hnamed
    simp only [List.isEmpty_nil, Bool.not_true, Bool.and_false, Bool.false_eq_true, if_false, hne,
      Bool.false_and, if_true]

end UrlParts

/-- The scheme of an address on the web, with two slashes behind it. -/
def WebOrigin (origin : Text) : Prop :=
  ∃ rest, UrlParts.cutScheme? origin = some ("http".toList, '/' :: '/' :: rest) ∨
    UrlParts.cutScheme? origin = some ("https".toList, '/' :: '/' :: rest)

theorem WebOrigin.ne_nil {origin : Text} (h : WebOrigin (UrlParts.cleaned origin)) : origin ≠ [] := by
  rintro rfl
  obtain ⟨rest, h | h⟩ := h <;> cases h

theorem WebOrigin.isWebScheme {origin given : Text} {parts : UrlParts}
    (h : WebOrigin (UrlParts.cleaned origin)) (hparse : UrlParts.parse origin given = .ok parts) :
    UrlParts.IsWebScheme parts.scheme := by
  rw [UrlParts.scheme_of_parse hparse]
  obtain ⟨rest, h | h⟩ := h
  · exact .inl (by rw [h]; rfl)
  · exact .inr (by rw [h]; rfl)

end StyleSplice
