import StyleSplice.Proofs.Url.Parts

/-!
# References on the web

A reference in a document from the web either stays as it is when it is resolved, or becomes an
address that names its scheme and its authority. Such an address is remote by itself, so it means
the same wherever it stands.
-/

namespace StyleSplice

namespace UrlParts

/-- An address with a scheme that knows authorities has one, if only an empty one. -/
theorem exists_write_eq {u : UrlParts} {parameters : Text} (hne : u.scheme.isEmpty = false)
    (ha : authoritySchemes.contains u.scheme = true) :
    ∃ rest, u.write parameters = u.scheme ++ ':' :: '/' :: '/' :: rest := by
  unfold write
  extract_lets path slashes hasAuthority rooted written
  obtain ⟨rest, hwritten⟩ : ∃ rest, written = '/' :: '/' :: rest := by
    by_cases hslashes : slashes.isPrefixOf path = true
    · obtain ⟨rest, hrest⟩ := List.isPrefixOf_iff_prefix.1 hslashes
      by_cases hauthority : hasAuthority = true
      · exact ⟨_, if_pos hauthority⟩
      · exact ⟨rest, (if_neg hauthority).trans hrest.symm⟩
    · have hauthority : hasAuthority = true := by
        simp only [hasAuthority, hne, ha, hslashes]
        simp
      exact ⟨_, if_pos hauthority⟩
  rw [hwritten, hne]
  simp only [Bool.false_eq_true, if_false, List.append_assoc, List.cons_append, List.nil_append]
  exact ⟨_, rfl⟩

/-- A reference that is resolved against an address with such a scheme has another scheme, or one
that knows no relative references, and stays as it is; or it becomes an address with this scheme. -/
theorem foreign_or_exists_of_join {base reference url : Text} {b : UrlParts}
    (hb : parse base = .ok b) (hne : b.scheme.isEmpty = false)
    (ha : authoritySchemes.contains b.scheme = true) (hr : reference ≠ [])
    (h : join base reference = .ok url) :
    (url = reference ∧ ∃ r, parse reference b.scheme = .ok r ∧
      (r.scheme ≠ b.scheme ∨ relativeSchemes.contains r.scheme = false)) ∨
      ∃ rest, url = b.scheme ++ ':' :: '/' :: '/' :: rest := by
  have hbase : ¬ base.isEmpty = true := by
    intro hempty
    obtain rfl := List.isEmpty_iff.1 hempty
    obtain rfl : ({} : UrlParts) = b := Except.ok.inj hb
    cases hne
  unfold join at h
  rw [if_neg hbase, if_neg (by simpa using hr), hb] at h
  dsimp only at h
  split at h
  · cases h
  · rename_i r hparse
    split at h
    · rename_i hforeign
      cases h
      exact .inl ⟨rfl, r, hparse, hforeign.imp_right (by simp)⟩
    · rename_i hsame
      have hscheme : r.scheme = b.scheme :=
        Decidable.byContradiction fun hdiff => hsame (.inl hdiff)
      rw [← hscheme] at hne ha ⊢
      right
      split at h
      · cases h
        exact exists_write_eq hne ha
      · split at h
        all_goals
          cases h
          exact exists_write_eq hne ha

/-- A reference that is resolved against an address with such a scheme stays as it is, or becomes an
address with this scheme. -/
theorem eq_or_exists_of_join {base reference url : Text} {b : UrlParts} (hb : parse base = .ok b)
    (hne : b.scheme.isEmpty = false) (ha : authoritySchemes.contains b.scheme = true)
    (hr : reference ≠ []) (h : join base reference = .ok url) :
    url = reference ∨ ∃ rest, url = b.scheme ++ ':' :: '/' :: '/' :: rest :=
  (foreign_or_exists_of_join hb hne ha hr h).imp_left And.left

/-- A reference without a scheme gets that of the address. -/
theorem exists_of_join {base reference url : Text} {b : UrlParts} (hb : parse base = .ok b)
    (hne : b.scheme.isEmpty = false) (ha : authoritySchemes.contains b.scheme = true)
    (hrelative : relativeSchemes.contains b.scheme = true) (hr : reference ≠ [])
    (hs : cutScheme? (cleaned reference) = none) (h : join base reference = .ok url) :
    ∃ rest, url = b.scheme ++ ':' :: '/' :: '/' :: rest := by
  rcases foreign_or_exists_of_join hb hne ha hr h with ⟨-, r, hparse, hforeign⟩ | hown
  · have hscheme := scheme_of_parse hparse
    rw [hs, Option.map_none, Option.getD_none] at hscheme
    rcases hforeign with hdiff | hforeign
    · exact absurd hscheme hdiff
    · rw [hscheme, hrelative] at hforeign
      cases hforeign
  · exact hown

end UrlParts

/-- An address on the web: it is remote by itself, and its scheme is one of the two. -/
def OnWeb (url : Text) : Prop :=
  isRemote url = true ∧ ∃ parts, UrlParts.parse url = .ok parts ∧
    (parts.scheme = "http".toList ∨ parts.scheme = "https".toList)

instance (url : Text) : Decidable (OnWeb url) :=
  match h : UrlParts.parse url with
  | .ok parts =>
    decidable_of_iff (isRemote url = true ∧
      (parts.scheme = "http".toList ∨ parts.scheme = "https".toList)) (by simp [OnWeb, h])
  | .error _ => .isFalse (by simp [OnWeb, h])

/-- What is resolved against an address on the web, if it does not stay as it is, is remote by
itself and starts with a letter. -/
theorem exists_of_resolveReference {target origin url : Text} (hweb : OnWeb origin)
    (hne : target ≠ []) (h : resolveReference target origin = .ok url) (hchanged : url ≠ target) :
    ∃ rest, url = "http://".toList ++ rest ∨ url = "https://".toList ++ rest := by
  obtain ⟨-, parts, hparse, hscheme⟩ := hweb
  unfold resolveReference at h
  split at h
  · cases h
    exact absurd rfl hchanged
  · rcases hscheme with hs | hs
    all_goals
      have hempty : parts.scheme.isEmpty = false := by rw [hs]; rfl
      have hauthority : UrlParts.authoritySchemes.contains parts.scheme = true := by
        rw [hs]
        decide
      rcases UrlParts.eq_or_exists_of_join hparse hempty hauthority hne h with rfl | ⟨rest, rfl⟩
      · exact absurd rfl hchanged
      · rw [hs]
        exact ⟨rest, by simp⟩

/-- A target from the web means the same before and after it was resolved. -/
theorem Target.classify_resolved {target origin url scheme : Text} (hweb : OnWeb origin)
    (hne : target ≠ []) (h : resolveReference target origin = .ok url) (hchanged : url ≠ target) :
    classify url (some origin) scheme = classify target (some origin) scheme := by
  have hurl : isRemote url = true ∧ startsSlashed url = false := by
    obtain ⟨rest, rfl | rfl⟩ := exists_of_resolveReference hweb hne h hchanged
    all_goals exact ⟨rfl, rfl⟩
  have habsolute : isAbsolute target = false := by
    unfold resolveReference at h
    split at h
    · cases h
      exact absurd rfl hchanged
    · simpa using ‹¬ isAbsolute target = true›
  obtain ⟨hremote, parts, hparse, hscheme⟩ := hweb
  have hknown : known (some origin) = some origin := by
    cases origin with
    | nil => cases hremote
    | cons c origin => rfl
  have hbefore : classify target (some origin) scheme = .ok (.remote url) := by
    unfold classify
    rw [hknown]
    by_cases hr : isRemote target = true
    · have hslashed : startsSlashed target = true := by
        have hnone : afterScheme? target = none := by simpa [isAbsolute] using habsolute
        simpa [isRemote, hnone] using hr
      rw [if_pos hr, if_pos hslashed, Option.filter_some, if_pos hremote]
      dsimp only
      rw [h]
      rfl
    · rw [if_neg hr, if_neg (by simp [habsolute])]
      dsimp only
      rw [hparse]
      dsimp only
      rw [if_pos hscheme, h]
      rfl
  rw [hbefore]
  unfold classify
  rw [if_pos hurl.1, if_neg (by simp [hurl.2])]

end StyleSplice
