import StyleSplice.Asset.Anchor
import StyleSplice.Proofs.Asset.Places

/-!
# Anchoring is one substitution

The references of a value are resolved from the last to the first, each at the place where it was found.
As long as none begins inside another one, that is one substitution in the value: every relative
address is replaced once, and everything else stays.
-/

namespace StyleSplice

namespace AssetRef

variable {origin value s out : Text} {at₀ : Nat} {a : AssetRef} {refs : List AssetRef}

/-- One substitution in a text that begins at `at₀`: the address of each reference is replaced by the one
that it stands for in a document at `origin`, and the text between the addresses stays. -/
inductive Substituted (origin : Text) : Nat → List AssetRef → Text → Text → Prop
  | done (at₀ : Nat) (s : Text) : Substituted origin at₀ [] s s
  | replaced {at₀ : Nat} {a : AssetRef} {refs : List AssetRef} {gap url rest out : Text}
    (start : a.start = at₀ + gap.length) (stop : a.stop = a.start + a.url.length)
    (resolved : resolveReference a.url origin = .ok url)
    (later : Substituted origin a.stop refs rest out) :
    Substituted origin at₀ (a :: refs) (gap ++ (a.url ++ rest)) (gap ++ (url ++ out))

/-- Text that stays may stand in front. -/
theorem Substituted.prepend {w : Text} (h : Substituted origin (at₀ + w.length) refs s out) :
    Substituted origin at₀ refs (w ++ s) (w ++ out) := by
  cases h with
  | done => exact .done at₀ (w ++ s)
  | @replaced _ a refs gap url rest out start stop resolved later =>
    rw [← List.append_assoc, ← List.append_assoc w gap (url ++ out)]
    exact .replaced (by rw [start, List.length_append, Nat.add_assoc]) stop resolved later

/-- The text from the end of some text in front on is cut at an address that begins there or later. -/
theorem InPlace.exists_gap {front : Text} (h : a.InPlace 0 (front ++ s))
    (hfrom : front.length ≤ a.start) :
    ∃ gap rest, s = gap ++ (a.url ++ rest) ∧ a.start = front.length + gap.length ∧
      a.stop = a.start + a.url.length := by
  obtain ⟨f, back, heq, hstart, hstop⟩ := h
  have hprefix : front <+: f :=
    List.prefix_of_prefix_length_le ⟨s, rfl⟩ ⟨a.url ++ back, heq.symm⟩ (by omega)
  obtain ⟨gap, rfl⟩ := hprefix
  rw [List.append_assoc] at heq
  exact ⟨gap, back, List.append_cancel_left heq, by simp [hstart], hstop⟩

/-- A reference is replaced where it stands, unless it is left as it is. -/
theorem substituted_of_anchorIn {front gap rest o : Text}
    (hstart : a.start = front.length + gap.length) (hstop : a.stop = a.start + a.url.length)
    (h : anchorIn origin (front ++ (gap ++ (a.url ++ o))) a = .ok out)
    (hlater : Substituted origin a.stop refs rest o) :
    ∃ o', out = front ++ o' ∧ Substituted origin front.length
      (if a.isAnchorable then a :: refs else refs) (gap ++ (a.url ++ rest)) o' := by
  unfold anchorIn at h
  split at h
  · rename_i ha
    split at h
    · rename_i url hurl
      cases h
      have htake : (front ++ (gap ++ (a.url ++ o))).take a.start = front ++ gap := by
        rw [← List.append_assoc]
        exact List.take_left' (by simp [hstart])
      have hdrop : (front ++ (gap ++ (a.url ++ o))).drop a.stop = o := by
        rw [← List.append_assoc, ← List.append_assoc]
        exact List.drop_left' (by simp only [List.length_append]; omega)
      rw [if_pos ha, htake, hdrop]
      exact ⟨gap ++ (url ++ o), by simp, .replaced hstart hstop hurl hlater⟩
    · cases h
  · rename_i ha
    cases h
    rw [if_neg ha]
    have hplace : a.stop = front.length + gap.length + a.url.length := by omega
    rw [hplace] at hlater
    exact ⟨_, rfl, hlater.prepend.prepend⟩

/-- The references of a text are replaced from the last to the first, while the text in front of them
stays. -/
theorem substituted_of_foldlM (front : Text) (hin : ∀ a ∈ refs, a.InPlace 0 (front ++ s))
    (hfrom : ∀ a ∈ refs, front.length ≤ a.start) (hbefore : refs.Pairwise Before)
    (h : refs.reverse.foldlM (anchorIn origin) (front ++ s) = .ok out) :
    ∃ o, out = front ++ o ∧
      Substituted origin front.length (refs.filter isAnchorable) s o := by
  induction refs generalizing front s out with
  | nil =>
    cases h
    exact ⟨s, rfl, .done _ s⟩
  | cons a refs ih =>
    obtain ⟨gap, rest, rfl, hstart, hstop⟩ := (hin a (by simp)).exists_gap (hfrom a (by simp))
    obtain ⟨hfirst, hrest⟩ := List.pairwise_cons.1 hbefore
    have hlength : (front ++ (gap ++ a.url)).length = a.stop := by
      simp only [List.length_append]
      omega
    have htext : ∀ x, front ++ (gap ++ (a.url ++ x)) = front ++ (gap ++ a.url) ++ x := by simp
    -- the replacement of the first reference comes last
    rw [List.foldlM_reverse, List.foldrM_cons, ← List.foldlM_reverse, htext] at h
    rw [htext] at hin
    cases hmid : refs.reverse.foldlM (anchorIn origin) (front ++ (gap ++ a.url) ++ rest) with
    | error f =>
      rw [hmid] at h
      cases h
    | ok mid =>
      obtain ⟨o, rfl, hlater⟩ := ih _ (fun b hb => hin b (List.mem_cons_of_mem a hb))
        (fun b hb => hlength ▸ (hfirst b hb).2) hrest hmid
      rw [hmid, ← htext] at h
      rw [hlength] at hlater
      rw [List.filter_cons]
      exact substituted_of_anchorIn hstart hstop h hlater

/-- The references of a value stand in it, in the order of their places. If none of them begins inside
another one, each ends before the next one begins; and as long as that is so, anchoring replaces each
relative address of the value once and nothing else. -/
theorem anchorReferences_substitutes (value : Text) :
    (∀ a ∈ findAll value, a.start ≤ a.stop ∧ a.stop ≤ value.length ∧
      (value.take a.stop).drop a.start = a.url) ∧
    (findAll value).Pairwise (fun a b => a.start ≤ b.start) ∧
    (Separate value → (findAll value).Pairwise Before) ∧
    ((findAll value).Pairwise Before → ∀ origin out, anchorReferences value origin = .ok out →
      Substituted origin 0 ((findAll value).filter isAnchorable) value out) := by
  refine ⟨fun a ha => ?_, pairwise_findAll value, pairwise_before_of_separate,
    fun hbefore origin out h => ?_⟩
  · have hin := inPlace_of_mem_findAll ha
    have hbounds := hin.bounds
    exact ⟨hbounds.1, by omega, hin.slice⟩
  · obtain ⟨o, rfl, hsub⟩ := substituted_of_foldlM (s := value) []
      (fun a ha => inPlace_of_mem_findAll ha) (fun a _ => Nat.zero_le _) hbefore h
    exact hsub

/-- A call with blanks, a string and a call in an image set, a fragment, and a string that is no
reference. -/
theorem anchorReferences_substitutes_set :
    let value := "url( a.png ) image-set('b' 1x,Url(\"#c\")2x) 'd'".toList
    let out := "url( http://h/x/a.png ) image-set('http://h/x/b' 1x,Url(\"#c\")2x) 'd'".toList
    Separate value ∧ anchorReferences value "http://h/x/s.css".toList = .ok out ∧
      ∃ a b, Substituted "http://h/x/s.css".toList 0 [a, b] value out ∧
        a.url = "a.png".toList ∧ b.url = ['b'] := by
  intro value out
  have hseparate : Separate value := by decide +kernel
  have hout : anchorReferences value "http://h/x/s.css".toList = .ok out := rfl
  obtain ⟨-, -, hbefore, hsub⟩ := anchorReferences_substitutes value
  exact ⟨hseparate, hout, _, _, hsub (hbefore hseparate) _ _ hout, rfl, rfl⟩

/-- A string in an image set inside another one is found twice and replaced twice, the second time at a
place that has moved on; and a call in a string is replaced in the text that takes the place of the
string. -/
theorem references_clash_in_strings :
    let nested := "image-set(image-set('a' 1x) 2x)".toList
    let called := "image-set('url(a)' 1x)".toList
    (findAll nested).map (fun a => (a.start, a.stop)) = [(21, 22), (21, 22)] ∧
      anchorReferences nested "http://h/s".toList =
        .ok "image-set(image-set('http://h/attp://h/a' 1x) 2x)".toList ∧
      (findAll called).map (fun a => (a.start, a.stop)) = [(11, 17), (15, 16)] ∧
      anchorReferences called "http://h/s".toList =
        .ok "image-set('http://h/url(a)tp://h/a)' 1x)".toList :=
  ⟨rfl, rfl, rfl, rfl⟩

end AssetRef

end StyleSplice
