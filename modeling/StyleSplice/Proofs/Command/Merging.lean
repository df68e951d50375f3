import StyleSplice.Command.Settings
import StyleSplice.Proofs.Options.Precedence

/-!
# Merging a configuration and switches

The switches are set in the configuration under the names of their options, so an option is what its
switch says if that name prevails, and what the configuration says if not. Headers are taken out of
the configuration before this, turned into pairs, and entered last.
-/

namespace StyleSplice

namespace Flags

/-- The value that a switch sets an option to. -/
def value? (f : Flags) : OptionName → Option Value
  | .recursive => f.recursive.map .bool
  | .anchorReferences => f.anchorReferences.map .bool
  | .maxDepth => f.maxDepth.map .int
  | .userAgent => f.userAgent.map .text
  | .modernBrowser => f.modernBrowser.map .bool
  | .timeouts => f.timeout.map .double
  | .headers | .workers | .defaultScheme => none

variable {f : Flags} {o : Options} {name : OptionName} {v : Value} {config : List (Text × Value)}

/-- The options that the switches set, other than headers. -/
def named : List OptionName :=
  [.recursive, .anchorReferences, .maxDepth, .userAgent, .modernBrowser, .timeouts]

theorem mem_named (h : f.value? name = some v) : name ∈ named := by
  cases name
  case headers | workers | defaultScheme => cases h
  all_goals decide

theorem settings_eq (f : Flags) : f.settings = named.filterMap fun name =>
    (f.value? name).map fun v => (name.text.toList, v) := rfl

/-- The entries of a configuration other than its headers. -/
def withoutHeaders (config : List (Text × Value)) : List (Text × Value) :=
  config.filter fun e => e.1 != "headers".toList

/-- The entries of a configuration other than its headers, with those of the switches in their
place. -/
def entries (f : Flags) (config : List (Text × Value)) : List (Text × Value) :=
  f.settings.foldl (fun c x => put x.1 x.2 c) (withoutHeaders config)

theorem ne_headers_of_isSpelling (hname : name ≠ .headers) (e : Text × Value)
    (h : Options.isSpelling name e.1 = true) : (e.1 != "headers".toList) = true := by
  rw [bne_iff_ne]
  intro hkey
  have hheaders := Options.isSpelling_headers.2 hkey
  have := (of_decide_eq_true h).symm.trans (of_decide_eq_true hheaders)
  exact hname (Option.some.inj this)

theorem valueOf_withoutHeaders (config : List (Text × Value)) (hname : name ≠ .headers) :
    Options.valueOf name (withoutHeaders config) = Options.valueOf name config :=
  lastOf_filter (ne_headers_of_isSpelling hname) _

/-- A switch counts if its name prevails in the configuration; else what the configuration says
counts. -/
theorem valueOf_entries (f : Flags) (config : List (Text × Value)) (hname : name ≠ .headers) :
    Options.valueOf name (f.entries config) =
      (if name.Prevails config then f.value? name else none).getD
        (Options.valueOf name config) := by
  have hprevails : name.Prevails (withoutHeaders config) ↔ name.Prevails config :=
    Options.prevails_filter (ne_headers_of_isSpelling hname)
  rw [entries, settings_eq, Options.valueOf_foldl_put (by decide),
    valueOf_withoutHeaders config hname]
  simp only [hprevails]
  cases hv : f.value? name with
  | none => simp
  | some v => by_cases hprevails : name.Prevails config <;> simp [mem_named hv, hprevails]

/-- No entry is one for headers. -/
theorem valueOf_headers_entries (f : Flags) (config : List (Text × Value)) :
    Options.valueOf .headers (f.entries config) = .object [] := by
  rw [entries, settings_eq, Options.valueOf_foldl_put (by decide), if_neg (by simp [named])]
  refine lastOf_of_none (fun e he => Bool.eq_false_iff.2 fun hheaders => ?_) _
  have hne := (List.mem_filter.1 he).2
  rw [Options.isSpelling_headers.1 hheaders] at hne
  simp at hne

/-- Every entry is one of the configuration or sets the option of a switch. -/
theorem mem_entries {e : Text × Value} (h : e ∈ f.entries config) :
    (∃ name v, f.value? name = some v ∧ e = (name.text.toList, v)) ∨ e ∈ config := by
  rcases mem_foldl_put h with hset | hkept
  · rw [settings_eq] at hset
    obtain ⟨name, -, hname⟩ := List.mem_filterMap.1 hset
    obtain ⟨v, hv, rfl⟩ := Option.map_eq_some_iff.1 hname
    exact .inl ⟨name, v, hv, rfl⟩
  · exact .inr (List.mem_filter.1 hkept).1

end Flags

namespace Value

/-- Fields of an object as pairs of values. -/
def pairsOf (fields : List (Text × Value)) : List (Value × Value) :=
  fields.map fun x => (.text x.1, x.2)

theorem headerPairs_object (fields : List (Text × Value)) :
    (Value.object fields).headerPairs = .ok (pairsOf fields) := by
  unfold headerPairs
  cases fields with
  | nil => rfl
  | cons x fields => rfl

theorem putBy_pairsOf (k s : Text) (fields : List (Text × Value)) :
    putBy sameKey (.text k) (.text s) (pairsOf fields) = pairsOf (put k (.text s) fields) := by
  induction fields with
  | nil => rfl
  | cons x fields ih =>
    obtain ⟨k', v⟩ := x
    rw [put, putBy, pairsOf, List.map_cons, putBy]
    by_cases hsame : k' = k
    · rw [if_pos (by simpa [sameKey] using hsame), if_pos (by simpa using hsame)]
      rfl
    · rw [if_neg (by simpa [sameKey] using hsame), if_neg (by simpa using hsame)]
      exact congrArg _ ih

end Value

namespace Options

/-- Distinct names are written out in their places. -/
theorem writeHeaders_pairsOf {fields : List (Text × Value)} {done : List (Text × Text)}
    (h : (fields.map Prod.fst).Nodup) :
    writeHeaders (Value.pairsOf fields) = .ok done ↔
      (∀ x ∈ fields, x.2.isWritable = true) ∧ done = fields.map fun x => (x.1, x.2.plain) := by
  have hall : ((Value.pairsOf fields).all fun x => x.1.isWritable && x.2.isWritable) = true ↔
      ∀ x ∈ fields, x.2.isWritable = true := by
    simp [Value.pairsOf, Value.isWritable]
  have hwritten : (Value.pairsOf fields).foldl (fun hs x => put x.1.plain x.2.plain hs) [] =
      fields.map fun x => (x.1, x.2.plain) := by
    have hnodup : (([] ++ fields.map fun x : Text × Value => (x.1, x.2.plain)).map
        Prod.fst).Nodup := by
      simpa [Function.comp_def] using h
    rw [Value.pairsOf, List.foldl_map]
    have hfold := foldl_put_of_nodup hnodup
    rwa [List.foldl_map] at hfold
  rw [writeHeaders, hwritten]
  by_cases hw : ∀ x ∈ fields, x.2.isWritable = true
  · rw [if_pos (hall.2 hw), Except.ok.injEq]
    exact ⟨fun hdone => ⟨hw, hdone.symm⟩, fun hdone => hdone.2.symm⟩
  · rw [if_neg fun hall' => hw (hall.1 hall')]
    exact iff_of_false (by rintro ⟨⟩) fun hdone => hw hdone.1

end Options

namespace Flags

variable {f : Flags} {o : Options} {name : OptionName} {v w : Value} {config : List (Text × Value)}

/-- The headers of the switches are added to those of the configuration before these are written
out, or afterwards. -/
theorem writeHeaders_merged {fields : List (Text × Value)} {done : List (Text × Text)}
    (hnames : (fields.map Prod.fst).Nodup)
    (h : Options.writeHeaders (Value.pairsOf fields) = .ok done) :
    Options.writeHeaders (f.mergedHeaders (Value.pairsOf fields)) =
      .ok (f.headers.foldl (fun hs h => put h.1 h.2 hs) done) := by
  rw [mergedHeaders]
  generalize f.headers = headers
  induction headers generalizing fields done with
  | nil => exact h
  | cons header headers ih =>
    obtain ⟨hwritable, rfl⟩ := (Options.writeHeaders_pairsOf hnames).1 h
    rw [List.foldl_cons, List.foldl_cons, Value.putBy_pairsOf]
    refine ih (nodup_put hnames) ((Options.writeHeaders_pairsOf (nodup_put hnames)).2 ⟨?_, ?_⟩)
    · intro x hx
      rcases mem_put hx with rfl | hx
      · rfl
      · exact hwritable x hx
    · exact (map_put Value.plain header.1 (.text header.2) fields).symm

/-- The settings of a merged configuration, once its headers are pairs. -/
def merged (f : Flags) (config : List (Text × Value)) (pairs : List (Value × Value)) :
    List (Text × Setting) :=
  let settings := Options.settingsOf (f.entries config)
  let headers := f.mergedHeaders pairs
  if headers.isEmpty then settings else settings ++ [("headers".toList, .headers headers)]

theorem merge_eq (f : Flags) (config : List (Text × Value)) : f.merge config =
    ((field? "headers".toList config).getD .null).headerPairs.map (f.merged config) := by
  unfold merge
  dsimp only
  cases ((field? "headers".toList config).getD .null).headerPairs with
  | error e => rfl
  | ok pairs => rfl

theorem enterAll_concat (d : Draft) (settings : List (Text × Setting)) (e : Text × Setting) :
    Options.enterAll d (settings ++ [e]) =
      (Options.enterAll d settings).bind fun d => Options.enter d e.1 e.2 := by
  induction settings generalizing d with
  | nil =>
    rw [List.nil_append, Options.enterAll, Options.enterAll]
    change _ = Options.enter d e.1 e.2
    cases Options.enter d e.1 e.2 with
    | error f => rfl
    | ok d => rfl
  | cons x settings ih =>
    rw [List.cons_append, Options.enterAll, Options.enterAll]
    cases Options.enter d x.1 x.2 with
    | error f => rfl
    | ok d => exact ih d

/-- Headers are entered last, after everything else. -/
theorem enterAll_merged (f : Flags) (config : List (Text × Value)) (pairs : List (Value × Value)) :
    Options.enterAll {} (f.merged config pairs) =
      (Options.enterAll {} (Options.settingsOf (f.entries config))).bind fun d =>
        (Options.writeHeaders (f.mergedHeaders pairs)).map fun h => { d with headers := h } := by
  unfold merged
  dsimp only
  split
  · -- No entry is left to set headers, so they are empty all the same.
    rename_i hempty
    rw [List.isEmpty_iff.1 hempty]
    cases hd : Options.enterAll {} (Options.settingsOf (f.entries config)) with
    | error e => rfl
    | ok d =>
      have hreads := (Options.enterAll_eq_ok_iff.1 hd).2 .headers
      rw [valueOf_headers_entries] at hreads
      have hnone : [] = d.headers := Except.ok.inj hreads
      change Except.ok d = .ok { d with headers := [] }
      rw [hnone]
  · exact enterAll_concat _ _ _

/-- A configuration and switches give options if the headers can be converted and written out and
all other entries can be entered. -/
theorem options_eq_ok_iff : f.options config = .ok o ↔
    ∃ pairs, ((field? "headers".toList config).getD .null).headerPairs = .ok pairs ∧
      Options.writeHeaders (f.mergedHeaders pairs) = .ok o.headers ∧
        ∃ d : Draft, Options.enterAll {} (Options.settingsOf (f.entries config)) = .ok d ∧
          { d with headers := o.headers } = o.draft := by
  unfold options
  rw [merge_eq]
  cases ((field? "headers".toList config).getD .null).headerPairs with
  | error e => exact iff_of_false nofun (by rintro ⟨_, h, -⟩; cases h)
  | ok pairs =>
    change (Options.ofSettings (f.merged config pairs)).mapError SettingsFault.option = _ ↔ _
    rw [mapError_eq_ok_iff, Options.ofSettings_eq_ok_iff, enterAll_merged]
    simp only [Except.ok.injEq, exists_eq_left']
    cases Options.enterAll {} (Options.settingsOf (f.entries config)) with
    | error e => exact iff_of_false nofun (by rintro ⟨-, d, hd, -⟩; cases hd)
    | ok d =>
      cases Options.writeHeaders (f.mergedHeaders pairs) with
      | error e => exact iff_of_false nofun (by rintro ⟨hw, -⟩; cases hw)
      | ok h =>
        change (Except.ok { d with headers := h } : Except OptionFault Draft) = _ ↔ _
        simp only [Except.ok.injEq, exists_eq_left']
        constructor
        · intro hdraft
          have hh : h = o.headers := congrArg Draft.headers hdraft
          exact ⟨hh, hh ▸ hdraft⟩
        · rintro ⟨rfl, hdraft⟩
          exact hdraft

/-- A configuration has at most one entry for headers, and that counts. -/
theorem valueOf_headers (hconfig : (Value.object config).Distinct) :
    Options.valueOf .headers config = (field? "headers".toList config).getD (.object []) := by
  have hfind : ∀ x ∈ config, Options.isSpelling .headers x.1 = true →
      field? "headers".toList config = some x.2 := by
    intro x hx hheaders
    rw [field?_eq_some_iff hconfig.nodup, ← Options.isSpelling_headers.1 hheaders]
    exact hx
  cases hfield : field? "headers".toList config with
  | none =>
    refine lastOf_of_none (fun x hx => Bool.eq_false_iff.2 fun hheaders => ?_) _
    cases hfield.symm.trans (hfind x hx hheaders)
  | some v =>
    have hmem := (field?_eq_some_iff hconfig.nodup).1 hfield
    refine lastOf_of_unique hmem (Options.isSpelling_headers.2 rfl) (fun x hx hheaders => ?_) _
    have hv : v = x.2 := Option.some.inj (hfield.symm.trans (hfind x hx hheaders))
    exact Prod.ext (Options.isSpelling_headers.1 hheaders) hv.symm

/-- What the headers of a configuration are, if they are right: an object, or nothing. -/
theorem headers_of_configuration (hconfig : (Value.object config).Distinct)
    {written : List (Text × Text)}
    (h : Options.readHeaders ((field? "headers".toList config).getD (.object [])) = .ok written) :
    ∃ fields : List (Text × Value), (fields.map Prod.fst).Nodup ∧
      ((field? "headers".toList config).getD .null).headerPairs = .ok (Value.pairsOf fields) ∧
        Options.writeHeaders (Value.pairsOf fields) = .ok written := by
  cases hfield : field? "headers".toList config with
  | none =>
    rw [hfield] at h
    exact ⟨[], List.nodup_nil, rfl, h⟩
  | some v =>
    have hmem := (field?_eq_some_iff hconfig.nodup).1 hfield
    rw [hfield] at h
    cases v with
    | object fields =>
      exact ⟨fields, (hconfig.of_mem hmem).nodup, Value.headerPairs_object fields, h⟩
    | _ => cases h

end Flags

end StyleSplice
