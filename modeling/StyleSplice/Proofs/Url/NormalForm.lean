import StyleSplice.Proofs.Url.Web

/-!
# Self-contained addresses

The address of a remote target names its scheme and its authority, so it means the same wherever it
stands: it is a fixed point of both the classification and the resolution of targets. The one way to
miss this is a text that is taken over as it stands although it has a scheme only for the reader of
addresses, which drops characters that the test for a scheme does not.
-/

namespace StyleSplice

/-- An address that names its scheme and its authority, and that no document and no default changes
the meaning of. -/
structure SelfContained (url : Text) : Prop where
  named : ∃ rest, afterScheme? url = some ('/' :: '/' :: rest)
  unslashed : startsSlashed url = false
  classified : ∀ (origin : Option Text) (scheme : Text),
    Target.classify url origin scheme = .ok (.remote url)
  resolved : ∀ origin : Text, resolveReference url origin = .ok url

/-- A text that has a scheme once the characters are dropped that do not count, and none before. -/
structure HidesScheme (s : Text) : Prop where
  relative : isAbsolute s = false
  hidden : (UrlParts.cutScheme? (UrlParts.cleaned s)).isSome = true

instance (s : Text) : Decidable (HidesScheme s) :=
  decidable_of_iff (isAbsolute s = false ∧ (UrlParts.cutScheme? (UrlParts.cleaned s)).isSome = true)
    ⟨fun h => ⟨h.1, h.2⟩, fun h => ⟨h.1, h.2⟩⟩

variable {s url target scheme : Text} {origin : Option Text}

/-- Two slashes behind a scheme are all that it takes. -/
theorem selfContained_of_afterScheme? {rest : Text}
    (h : afterScheme? url = some ('/' :: '/' :: rest)) : SelfContained url := by
  have habsolute : isAbsolute url = true := isAbsolute_iff.2 ⟨_, h⟩
  have hslashed : startsSlashed url = false := by
    refine Bool.eq_false_iff.2 fun hs => ?_
    obtain ⟨rest', rfl⟩ := startsSlashed_iff.1 hs
    cases h
  have hremote : isRemote url = true := by
    rw [isRemote, h, Option.map_some, Option.getD_some, startsSlashed_iff.2 ⟨rest, rfl⟩,
      Bool.or_true]
  refine ⟨⟨rest, h⟩, hslashed, fun origin scheme => ?_, fun origin => ?_⟩
  · rw [Target.classify, if_pos hremote, if_neg (by simp [hslashed])]
  · rw [resolveReference, if_pos habsolute]

theorem selfContained_of_isRemote (h : isRemote url = true) (hs : startsSlashed url = false) :
    SelfContained url := by
  rw [isRemote, hs, Bool.false_or] at h
  cases hrest : afterScheme? url with
  | none =>
    rw [hrest] at h
    cases h
  | some rest =>
    rw [hrest] at h
    obtain ⟨rest, rfl⟩ := startsSlashed_iff.1 h
    exact selfContained_of_afterScheme? hrest

theorem selfContained_web (h : UrlParts.IsWebScheme scheme) (rest : Text) :
    SelfContained (scheme ++ ':' :: '/' :: '/' :: rest) := by
  rcases h with rfl | rfl
  all_goals exact selfContained_of_afterScheme? rfl

theorem SelfContained.not_hidesScheme (h : SelfContained url) : ¬ HidesScheme url := by
  intro hhides
  obtain ⟨rest, hrest⟩ := h.named
  have hrelative := hhides.relative
  rw [isAbsolute_iff.2 ⟨_, hrest⟩] at hrelative
  cases hrelative

/-- Where nothing is dropped, no scheme is hidden. -/
theorem not_hidesScheme_of_cleaned (h : UrlParts.cleaned s = s) : ¬ HidesScheme s := by
  rintro ⟨hrelative, hhidden⟩
  rw [h] at hhidden
  obtain ⟨⟨scheme, rest⟩, hcut⟩ := Option.isSome_iff_exists.1 hhidden
  rw [isAbsolute_iff.2 ⟨rest, UrlParts.afterScheme?_of_cutScheme? hcut⟩] at hrelative
  cases hrelative

/-- Nothing is dropped from the front of a text that has a scheme. -/
theorem clear_of_isAbsolute (h : isAbsolute s = true) : Text.Clear UrlParts.isControlOrSpace s := by
  obtain ⟨rest, hrest⟩ := isAbsolute_iff.1 h
  obtain ⟨c, w, rfl, hc, -⟩ := afterScheme?_eq_some_iff.1 hrest
  have hlow : ∀ n ≤ 32, isAnyLetter (Char.ofNat n) = false := by decide
  refine Text.clear_cons.2 (decide_eq_false fun hle => ?_)
  have hletter := hlow _ hle
  rw [Char.ofNat_toNat, hc] at hletter
  cases hletter

/-- The address of a document on the web is self-contained, or it hides its scheme. -/
theorem selfContained_of_webOrigin (h : WebOrigin (UrlParts.cleaned s))
    (hkept : ∀ c ∈ s, UrlParts.isDropped c = false) : SelfContained s ∨ HidesScheme s := by
  cases hs : isAbsolute s with
  | true =>
    rw [UrlParts.cleaned_eq_self (clear_of_isAbsolute hs) hkept] at h
    obtain ⟨rest, h | h⟩ := h
    all_goals
      exact .inl (selfContained_of_afterScheme? (UrlParts.afterScheme?_of_cutScheme? h))
  | false =>
    refine .inr ⟨hs, ?_⟩
    obtain ⟨rest, h | h⟩ := h
    all_goals
      rw [h]
      rfl

/-- A relative reference becomes a self-contained address, or it hides a scheme and stays. -/
theorem selfContained_of_resolveReference {reference base : Text}
    (hbase : WebOrigin (UrlParts.cleaned base)) (hr : isAbsolute reference = false)
    (hne : reference ≠ []) (h : resolveReference reference base = .ok url) :
    SelfContained url ∨ HidesScheme url ∧ url = reference := by
  rw [resolveReference, if_neg (by simp [hr])] at h
  obtain ⟨b, hb⟩ : ∃ b, UrlParts.parse base = .ok b := by
    cases hb : UrlParts.parse base with
    | ok b => exact ⟨b, rfl⟩
    | error f =>
      rw [UrlParts.join, if_neg (by simpa using hbase.ne_nil), if_neg (by simpa using hne), hb] at h
      cases h
  have hweb := hbase.isWebScheme hb
  obtain ⟨hscheme, hrelative, hknows⟩ := hweb.known
  rcases UrlParts.foreign_or_exists_of_join hb hscheme hknows hne h with
    ⟨rfl, r, hparse, hforeign⟩ | ⟨rest, rfl⟩
  · -- Only a scheme of its own can keep the reference as it is.
    cases hcut : UrlParts.cutScheme? (UrlParts.cleaned url) with
    | some x => exact .inr ⟨⟨hr, by rw [hcut]; rfl⟩, rfl⟩
    | none =>
      have hsame := UrlParts.scheme_of_parse hparse
      rw [hcut, Option.map_none, Option.getD_none] at hsame
      rw [hsame, hrelative] at hforeign
      simp at hforeign
  · exact .inl (selfContained_web hweb rest)

/-- An empty reference is the address of the document itself. -/
theorem resolveReference_nil {base : Text} (h : base ≠ []) :
    resolveReference [] base = .ok base := by
  rw [resolveReference, if_neg (by decide), UrlParts.join, if_neg (by simpa using h),
    if_pos (by rfl)]

/-- A remote target comes with an address of its own, or it takes the default scheme, or it is
resolved against the address of its document. -/
theorem Target.remote_cases (h : classify target origin scheme = .ok (.remote url)) :
    (isRemote target = true ∧ startsSlashed target = false ∧ url = target) ∨
      (startsSlashed target = true ∧ url = scheme ++ ':' :: target) ∨
      ∃ o ∈ origin, isAbsolute target = false ∧ resolveReference target o = .ok url := by
  have hmap : ∀ x : Except UrlFault Text, x.map remote = .ok (.remote url) → x = .ok url := by
    intro x hx
    cases x with
    | error f => cases hx
    | ok u => cases hx; rfl
  have hknown : ∀ o, known origin = some o → o ∈ origin :=
    fun o ho => (Option.filter_eq_some_iff.1 ho).1
  unfold classify at h
  split at h
  · rename_i hremote
    split at h
    · rename_i hslashed
      split at h
      · rename_i o ho
        obtain ⟨rest, rfl⟩ := startsSlashed_iff.1 hslashed
        exact .inr (.inr ⟨o, hknown o (Option.filter_eq_some_iff.1 ho).1, rfl, hmap _ h⟩)
      · cases h
        exact .inr (.inl ⟨hslashed, rfl⟩)
    · rename_i hunslashed
      cases h
      exact .inl ⟨hremote, by simpa using hunslashed, rfl⟩
  · split at h
    · cases h
    · rename_i hrelative
      split at h
      · cases h
      · rename_i o ho
        split at h
        · cases h
        · split at h
          · exact .inr (.inr ⟨o, hknown o ho, by simpa using hrelative, hmap _ h⟩)
          · cases h

/-- The address of a remote target is self-contained unless it hides its scheme. Then it is the
target or the address of the document as they stand, and holds a character that does not count. -/
theorem Target.selfContained_of_classify {target url scheme : Text} {origin : Option Text}
    (hscheme : UrlParts.IsWebScheme scheme)
    (horigin : ∀ o ∈ origin, WebOrigin (UrlParts.cleaned o) ∧
      ∀ c ∈ o, UrlParts.isDropped c = false)
    (h : classify target origin scheme = .ok (.remote url)) :
    (SelfContained url ↔ ¬ HidesScheme url) ∧
      (HidesScheme url →
        (url = target ∨ target = [] ∧ origin = some url) ∧ UrlParts.cleaned url ≠ url) := by
  have hcases : SelfContained url ∨
      HidesScheme url ∧ (url = target ∨ target = [] ∧ origin = some url) := by
    rcases remote_cases h with ⟨hremote, hunslashed, rfl⟩ | ⟨hslashed, rfl⟩ |
      ⟨o, ho, hrelative, hresolved⟩
    · exact .inl (selfContained_of_isRemote hremote hunslashed)
    · obtain ⟨rest, rfl⟩ := startsSlashed_iff.1 hslashed
      exact .inl (selfContained_web hscheme rest)
    · obtain ⟨hweb, hkept⟩ := horigin o ho
      -- The reader of references hands back the address of the document for an empty one.
      rcases eq_or_ne target [] with rfl | hne
      · rw [resolveReference_nil hweb.ne_nil] at hresolved
        cases hresolved
        exact (selfContained_of_webOrigin hweb hkept).imp_right
          fun hhides => ⟨hhides, .inr ⟨rfl, ho⟩⟩
      · exact (selfContained_of_resolveReference hweb hrelative hne hresolved).imp_right
          (And.imp_right .inl)
  rcases hcases with hself | ⟨hhides, hfrom⟩
  · exact ⟨iff_of_true hself hself.not_hidesScheme,
      fun hhides => absurd hhides hself.not_hidesScheme⟩
  · exact ⟨iff_of_false (fun hself => hself.not_hidesScheme hhides) (not_not_intro hhides),
      fun _ => ⟨hfrom, fun hcleaned => not_hidesScheme_of_cleaned hcleaned hhides⟩⟩

/-- A reference to the root from a document whose scheme is in capitals. -/
theorem Target.selfContained_of_classify_rooted :
    UrlParts.IsWebScheme "https".toList ∧ WebOrigin (UrlParts.cleaned "HTTP://h/a/s?x".toList) ∧
      classify "/c".toList (some "HTTP://h/a/s?x".toList) "https".toList =
        .ok (.remote "http://h/c".toList) ∧ SelfContained "http://h/c".toList := by
  have hscheme : UrlParts.IsWebScheme "https".toList := .inr rfl
  have horigin : WebOrigin (UrlParts.cleaned "HTTP://h/a/s?x".toList) :=
    ⟨"h/a/s?x".toList, .inl (by decide)⟩
  have hclassify : classify "/c".toList (some "HTTP://h/a/s?x".toList) "https".toList =
      .ok (.remote "http://h/c".toList) := by decide
  exact ⟨hscheme, horigin, hclassify, (selfContained_of_classify hscheme
    (fun o ho => Option.mem_some.1 ho ▸ ⟨horigin, by decide⟩) hclassify).1.2 (by decide)⟩

/-- A target with a blank in front of its scheme stays as it is if its document has another scheme,
and then it is not even remote by itself. -/
theorem Target.blank_hides_scheme :
    UrlParts.IsWebScheme "https".toList ∧ WebOrigin "https://h/s".toList ∧
      (∀ c ∈ " http://x/y".toList ++ "https://h/s".toList, UrlParts.isDropped c = false) ∧
      classify " http://x/y".toList (some "https://h/s".toList) "https".toList =
        .ok (.remote " http://x/y".toList) ∧
      afterScheme? " http://x/y".toList = none ∧
      classify " http://x/y".toList none "https".toList ≠ .ok (.remote " http://x/y".toList) ∧
      resolveReference " http://x/y".toList "http://h/s".toList ≠ .ok " http://x/y".toList :=
  ⟨.inr rfl, ⟨"h/s".toList, .inr (by decide)⟩, by decide, by decide, by decide, by decide, by decide⟩

end StyleSplice
