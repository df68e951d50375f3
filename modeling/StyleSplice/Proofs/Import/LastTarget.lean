import StyleSplice.Proofs.Import.Retarget

/-!
# One target after another

An import keeps the place of its target, so it can be given any number of targets, of any lengths. Only
the last of them is left in the parameters, between what stood around the first, and it is read back.
-/

namespace StyleSplice

namespace Import

variable {params u v : Text} {origin : Option Text} {d : Import}

/-- The raw target that the fields of an import were made of. -/
structure MadeOf (d : Import) (params : Text) (t : RawTarget) : Prop where
  read : rawTarget? params = some t
  target : d.target = Text.trim isBlank t.raw
  quote : d.quote = t.quote
  inUrl : d.inUrl = t.inUrl
  start : d.start = t.start
  stop : d.stop = t.start + t.raw.length
  conditions : ∃ rest, takeLayer (Text.trim isBlank t.rest) = (d.layer, rest) ∧
    takeSupports rest = (d.supports, d.media)

theorem exists_madeOf (h : decode? params origin = some d) : ∃ t, d.MadeOf params t := by
  unfold decode? at h
  split at h
  · cases h
  · rename_i t ht
    rcases hl : takeLayer (Text.trim isBlank t.rest) with ⟨layer, rest⟩
    rcases hs : takeSupports rest with ⟨supports, media⟩
    simp only [hl, hs, Option.some.injEq] at h
    subst h
    exact ⟨t, ht, rfl, rfl, rfl, rfl, rfl, rest, hl, hs⟩

/-- Around a target stand quotes or none. -/
theorem TargetForm.isQuote_of_mem {front back : Text} {t : RawTarget} (h : TargetForm front back t) :
    ∀ q ∈ t.quote, isQuote q = true := by
  rintro q hq
  cases h with
  | quotedUrl _ _ _ quote =>
    cases hq
    exact quote
  | bareUrl => cases hq
  | quoted quote =>
    cases hq
    exact quote

/-- The target of an import stands in the parameters. -/
theorem start_le_length (h : decode? params origin = some d) : d.start ≤ params.length := by
  obtain ⟨t, ht⟩ := exists_madeOf h
  obtain ⟨front, back, rfl, hform⟩ := exists_form_of_rawTarget? ht.read
  simp [ht.start, hform.start_eq]

/-- In the place of any target there is room for a text without quotes and closing brackets. -/
theorem canHold_of_plain (h : decode? params origin = some d)
    (hplain : ∀ c ∈ u, isQuote c = false ∧ c ≠ ')') (htrim : Text.Trimmed isBlank u) :
    d.CanHold u := by
  obtain ⟨t, ht⟩ := exists_madeOf h
  obtain ⟨front, back, -, hform⟩ := exists_form_of_rawTarget? ht.read
  have hquote : ∀ q ∈ t.quote, q ∉ u := fun q hq hmem => by
    have hisQuote := hform.isQuote_of_mem q hq
    rw [(hplain q hmem).1] at hisQuote
    cases hisQuote
  refine ⟨htrim, ?_⟩
  rw [ht.quote, ht.inUrl]
  match ho : t.quote, t.inUrl with
  | none, _ => exact fun hm => (hplain _ hm).2 rfl
  | some q, false => exact hquote q ho
  | some q, true => exact quotedArgument?_eq_none (hquote q ho)

/-- A second target takes the place of the first. -/
theorem retargeted_retargeted (h : d.start ≤ params.length) :
    (d.withTarget u).retargeted (d.retargeted params u) v = d.retargeted params v := by
  have hlength : (params.take d.start).length = d.start := List.length_take_of_le h
  have hfront : (d.retargeted params u).take d.start = params.take d.start := by
    rw [retargeted, List.append_assoc, List.take_left' hlength]
  have hback : (d.retargeted params u).drop (d.start + u.length) = params.drop d.stop := by
    rw [retargeted, List.drop_left' (by simp [hlength])]
  rw [retargeted, withTarget, hfront, hback, retargeted]

/-- The new target is what stands in its place. -/
theorem slice_retargeted (h : d.start ≤ params.length) :
    ((d.retargeted params u).take (d.withTarget u).stop).drop (d.withTarget u).start = u := by
  have hlength : (params.take d.start).length = d.start := List.length_take_of_le h
  rw [retargeted, withTarget, List.take_left' (by simp [hlength]), List.drop_left' hlength]

namespace Held

variable {h : AtHead}

theorem retarget?_some (d : Import) (h : AtHead) (url : Text) :
    Held.retarget? ⟨d, some h⟩ url =
      some ⟨d.withTarget url, some { h with params := d.retargeted h.params url }⟩ := rfl

/-- After one target the next one is put where it would have been put at once. -/
theorem retarget?_retargeted (hd : d.start ≤ h.params.length) (u v : Text) :
    Held.retarget? ⟨d.withTarget u, some { h with params := d.retargeted h.params u }⟩ v =
      Held.retarget? ⟨d, some h⟩ v := by
  rw [retarget?_some, retarget?_some, retargeted_retargeted hd]
  rfl

/-- Of several targets the last one counts. -/
theorem foldlM_retarget? (hd : d.start ≤ h.params.length) {urls : List Text} {url : Text}
    (hlast : urls.getLast? = some url) :
    urls.foldlM Held.retarget? ⟨d, some h⟩ = Held.retarget? ⟨d, some h⟩ url := by
  obtain ⟨front, rfl⟩ := List.getLast?_eq_some_iff.1 hlast
  induction front generalizing d h with
  | nil => simp [retarget?_some]
  | cons u front ih =>
    have hd' : (d.withTarget u).start ≤ (d.retargeted h.params u).length := by
      rw [withTarget, retargeted, List.append_assoc, List.length_append,
        List.length_take_of_le hd]
      exact Nat.le_add_right _ _
    rw [List.cons_append, List.foldlM_cons, retarget?_some, Option.bind_eq_bind, Option.bind_some,
      ih (h := { h with params := d.retargeted h.params u }) hd' (by simp),
      retarget?_retargeted hd]

end Held

/-- An import that is given targets one after another has the last of them, in the place of the target
that was read; the rest of its at-rule stays as it was. If that target has no quotes, no closing
brackets and no white space at its ends, the at-rule is read again as the import with that target. -/
theorem retarget_keeps_last {before : Text} {h : AtHead} {semicolon : Bool}
    (hd : ofNode? (.statement before h semicolon) origin = some d) {urls : List Text} {url : Text}
    (hlast : urls.getLast? = some url) (hne : url ≠ [])
    (hplain : ∀ c ∈ url, isQuote c = false ∧ c ≠ ')') (htrim : Text.Trimmed isBlank url) :
    let params := h.params.take d.start ++ url ++ h.params.drop d.stop
    let d' := { d with target := url, stop := d.start + url.length }
    urls.foldlM Held.retarget? ⟨d, some h⟩ = some ⟨d', some { h with params }⟩ ∧
      (params.take d'.stop).drop d'.start = url ∧
      ofNode? (.statement before { h with params } semicolon) origin = some d' := by
  intro params d'
  obtain ⟨_, _, _, ⟨⟩, hname, hdecode⟩ := ofNode?_eq_some_iff.1 hd
  have hstart := start_le_length hdecode
  refine ⟨?_, slice_retargeted hstart, ?_⟩
  · rw [Held.foldlM_retarget? hstart hlast, Held.retarget?_some]
    rfl
  · have hquote : Text.Clear isQuote url := fun c hc => (hplain c (List.mem_of_mem_head? hc)).1
    have hread := decode?_retargeted hdecode hne hquote (canHold_of_plain hdecode hplain htrim)
    exact ofNode?_eq_some_iff.2 ⟨_, _, _, rfl, hname, hread⟩

/-- A target with quotes in it and white space around it, a first target that could not be read back,
and conditions behind. -/
theorem retarget_keeps_last_padded :
    let h : AtHead := ⟨"Import".toList, "URL(\t'a' \"b' ) layer(x) d".toList, [' '], []⟩
    let urls := ["x') y".toList, "/e f.css".toList]
    let params := "URL(\t'/e f.css' ) layer(x) d".toList
    ∃ d d' : Import, ofNode? (.statement [] h true) none = some d ∧ d.target = "a' \"b".toList ∧
      urls.foldlM Held.retarget? ⟨d, some h⟩ = some ⟨d', some { h with params }⟩ ∧
      ofNode? (.statement [] { h with params } true) none = some d' ∧
      d'.target = "/e f.css".toList ∧ d'.layer = some ['x'] := by
  intro h urls params
  let d : Import :=
    { target := "a' \"b".toList, quote := some '\x27', inUrl := true, media := ['d'],
      layer := some ['x'], start := 6, stop := 11 }
  have hd : ofNode? (.statement [] h true) none = some d := rfl
  have hplain : ("/e f.css".toList.all fun c => !isQuote c && c != ')') = true := rfl
  have htrim : Text.Trimmed isBlank "/e f.css".toList := by decide +kernel
  have hlast : urls.getLast? = some "/e f.css".toList := rfl
  obtain ⟨hfold, -, hread⟩ := retarget_keeps_last hd hlast (by decide)
    (fun c hc => by simpa using List.all_eq_true.1 hplain c hc) htrim
  exact ⟨d, _, hd, rfl, hfold, hread, rfl, rfl⟩

end Import

end StyleSplice
