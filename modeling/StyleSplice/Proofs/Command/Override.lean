import StyleSplice.Command.Run
import StyleSplice.Proofs.Command.Merging
import StyleSplice.Proofs.Resolve.Steps

/-!
# Switches and the configuration

The switches of a command are set in the configuration under the names of their options, and headers
are merged apart from them. So a switch replaces its option in what the configuration gives, and
leaves everything else as it is, unless the configuration has another spelling of the option behind
the name that the switch sets: then the switch is lost. Without switches the configuration decides
alone, except that headers are taken in more forms than the check of the options lets through.
-/

namespace StyleSplice

namespace Flags

/-- The options with those of the switches in their place. Headers are added one by one. -/
def override (f : Flags) (o : Options) : Options :=
  { o with
    recursive := f.recursive.getD o.recursive
    anchorReferences := f.anchorReferences.getD o.anchorReferences
    maxDepth := (f.maxDepth.map Int.toNat).or o.maxDepth
    userAgent := f.userAgent.or o.userAgent
    modernBrowser := f.modernBrowser.getD o.modernBrowser
    headers := f.headers.foldl (fun hs h => put h.1 h.2 hs) o.headers
    timeouts := (f.timeout.map fun x => ⟨x, x⟩).getD o.timeouts }

/-- The switches that the configuration lets through. -/
def heard (f : Flags) (config : List (Text × Value)) : Flags where
  recursive := f.recursive.filter fun _ => OptionName.recursive.Prevails config
  anchorReferences := f.anchorReferences.filter fun _ => OptionName.anchorReferences.Prevails config
  maxDepth := f.maxDepth.filter fun _ => OptionName.maxDepth.Prevails config
  userAgent := f.userAgent.filter fun _ => OptionName.userAgent.Prevails config
  modernBrowser := f.modernBrowser.filter fun _ => OptionName.modernBrowser.Prevails config
  timeout := f.timeout.filter fun _ => OptionName.timeouts.Prevails config
  headers := f.headers

variable {f : Flags} {o : Options} {name : OptionName} {v w : Value} {config : List (Text × Value)}

theorem value?_heard (f : Flags) (config : List (Text × Value)) (name : OptionName) :
    (f.heard config).value? name = if name.Prevails config then f.value? name else none := by
  have hfilter : ∀ {α : Type} {x : Option α} {g : α → Value} {p : Prop} [Decidable p],
      (x.filter fun _ => p).map g = if p then x.map g else none := by
    intro α x g p _
    cases x <;> by_cases hp : p <;> simp [hp, Option.filter]
  cases name
  case headers | workers | defaultScheme => exact (ite_self none).symm
  all_goals exact hfilter

theorem heard_depth_nonneg (hdepth : ∀ n ∈ f.maxDepth, 0 ≤ n) :
    ∀ n ∈ (f.heard config).maxDepth, 0 ≤ n :=
  fun n hn => hdepth n (Option.mem_filter_iff.1 hn).1

/-- An option that a switch sets is what the switch says. -/
theorem reads_override_set (hdepth : ∀ n ∈ f.maxDepth, 0 ≤ n) (h : f.value? name = some v) :
    (f.override o).draft.Reads name v := by
  cases name
  case headers | workers | defaultScheme => cases h
  all_goals
    obtain ⟨x, hx, rfl⟩ := Option.map_eq_some_iff.1 h
  case maxDepth =>
    have hn : (x.toNat : Int) = x := Int.toNat_of_nonneg (hdepth x hx)
    simp [Draft.Reads, override, Options.draft, hx, Options.readDepth, Options.readInt, hn]
    rfl
  all_goals
    simp [Draft.Reads, override, Options.draft, hx]
    rfl

/-- The other options stay, headers aside. -/
theorem reads_override_kept (h : f.value? name = none) (hname : name ≠ .headers) :
    (f.override o).draft.Reads name w ↔ o.draft.Reads name w := by
  cases name
  case headers => exact absurd rfl hname
  case workers | defaultScheme => exact Iff.rfl
  all_goals
    have hnone := Option.map_eq_none_iff.1 h
    simp [Draft.Reads, override, Options.draft, hnone]

/-- A configuration that gives options by itself gives them with the switches as well; these replace
the options whose names prevail. -/
theorem options_of_ofEntries (hconfig : (Value.object config).Distinct)
    (hdepth : ∀ n ∈ f.maxDepth, 0 ≤ n) (h : Options.ofEntries config = .ok o) :
    f.options config = .ok ((f.heard config).override o) := by
  obtain ⟨hreadable, hreads⟩ := Options.ofEntries_eq_ok_iff.1 h
  have hheaders := hreads .headers
  rw [valueOf_headers hconfig] at hheaders
  obtain ⟨fields, hnames, hpairs, hwritten⟩ := headers_of_configuration hconfig hheaders
  refine options_eq_ok_iff.2 ⟨_, hpairs, writeHeaders_merged hnames hwritten,
    { ((f.heard config).override o).draft with headers := [] },
    Options.enterAll_eq_ok_iff.2 ⟨fun e he => ?_, fun name => ?_⟩, rfl⟩
  · rcases mem_entries he with ⟨name, v, hv, rfl⟩ | he
    · refine ⟨name, ?_, _, reads_override_set (o := o) hdepth hv⟩
      exact of_decide_eq_true ((Options.isSpelling_text name name).trans (decide_eq_true rfl))
    · exact hreadable e he
  · by_cases hname : name = .headers
    · rw [hname, valueOf_headers_entries]
      rfl
    · rw [Draft.reads_with_headers hname, valueOf_entries f config hname, ← value?_heard]
      cases hv : (f.heard config).value? name with
      | none => exact (reads_override_kept hv hname).2 (hreads name)
      | some v => exact reads_override_set (heard_depth_nonneg hdepth) hv

/-- The switches replace their options just when those that are lost say what the configuration says
anyway. -/
theorem override_heard_iff (hdepth : ∀ n ∈ f.maxDepth, 0 ≤ n)
    {value : OptionName → Value} (hreads : ∀ name, o.draft.Reads name (value name)) :
    (f.heard config).override o = f.override o ↔
      ∀ name v, f.value? name = some v → ¬ name.Prevails config → o.draft.Reads name v := by
  constructor
  · intro hsame name v hv hlost
    have hname : name ≠ .headers := by
      rintro rfl
      cases hv
    have hnone : (f.heard config).value? name = none := by rw [value?_heard, if_neg hlost]
    rw [← reads_override_kept hnone hname, hsame]
    exact reads_override_set hdepth hv
  · intro h
    refine Options.draft_injective (Draft.eq_of_reads_of_headers
      (fun name => (f.value? name).getD (value name)) rfl (fun name hname => ?_)
      fun name hname => ?_)
    -- A lost switch says what the option is already, so both sides read the value of the switch.
    all_goals cases hv : f.value? name
    · refine (reads_override_kept ?_ hname).2 (hreads name)
      rw [value?_heard, hv, ite_self]
    · rename_i v
      by_cases hprevails : name.Prevails config
      · refine reads_override_set (heard_depth_nonneg hdepth) ?_
        rw [value?_heard, if_pos hprevails, hv]
        rfl
      · refine (reads_override_kept ?_ hname).2 (h name v hv hprevails)
        rw [value?_heard, if_neg hprevails]
    · exact (reads_override_kept hv hname).2 (hreads name)
    · exact reads_override_set hdepth hv

/-- Without switches a configuration gives options if its headers can be converted to pairs that can
be written out, and the rest gives options. -/
theorem exists_options_iff : (∃ o, ({} : Flags).options config = .ok o) ↔
    (∃ pairs written, ((field? "headers".toList config).getD .null).headerPairs = .ok pairs ∧
      Options.writeHeaders pairs = .ok written) ∧
    ∃ o, Options.ofEntries (withoutHeaders config) = .ok o := by
  constructor
  · rintro ⟨o, ho⟩
    obtain ⟨pairs, hpairs, hwritten, d, hd, hdraft⟩ := options_eq_ok_iff.1 ho
    refine ⟨⟨pairs, o.headers, hpairs, hwritten⟩, { o with headers := d.headers }, ?_⟩
    refine Options.ofSettings_eq_ok_iff.2 (hd.trans (congrArg _ ?_))
    exact congrArg (fun d' : Draft => { d' with headers := d.headers }) hdraft
  · rintro ⟨⟨pairs, written, hpairs, hwritten⟩, o, ho⟩
    exact ⟨{ o with headers := written }, options_eq_ok_iff.2
      ⟨pairs, hpairs, hwritten, o.draft, Options.ofSettings_eq_ok_iff.1 ho, rfl⟩⟩

/-- A configuration by itself gives options if its headers, if there are any, are right and the rest
gives options. -/
theorem exists_ofEntries_iff (hconfig : (Value.object config).Distinct) :
    (∃ o, Options.ofEntries config = .ok o) ↔
      (∃ written, Options.readHeaders ((field? "headers".toList config).getD (.object [])) =
        .ok written) ∧ ∃ o, Options.ofEntries (withoutHeaders config) = .ok o := by
  constructor
  · rintro ⟨o, ho⟩
    obtain ⟨hreadable, hreads⟩ := Options.ofEntries_eq_ok_iff.1 ho
    refine ⟨⟨o.headers, valueOf_headers hconfig ▸ hreads .headers⟩, { o with headers := [] },
      Options.ofEntries_eq_ok_iff.2
        ⟨fun e he => hreadable e (List.mem_filter.1 he).1, fun name => ?_⟩⟩
    by_cases hname : name = .headers
    · rw [hname, show Options.valueOf .headers (withoutHeaders config) = .object [] from
        valueOf_headers_entries {} config]
      rfl
    · rw [valueOf_withoutHeaders config hname]
      exact (Draft.reads_with_headers hname).2 (hreads name)
  · rintro ⟨⟨written, hwritten⟩, o, ho⟩
    obtain ⟨hreadable, hreads⟩ := Options.ofEntries_eq_ok_iff.1 ho
    refine ⟨{ o with headers := written },
      Options.ofEntries_eq_ok_iff.2 ⟨fun e he => ?_, fun name => ?_⟩⟩
    · by_cases hkey : e.1 = "headers".toList
      · have hfield : field? "headers".toList config = some e.2 := by
          rw [field?_eq_some_iff hconfig.nodup, ← hkey]
          exact he
        rw [hfield] at hwritten
        exact ⟨.headers, of_decide_eq_true (Options.isSpelling_headers.2 hkey),
          { headers := written }, hwritten⟩
      · exact hreadable e (List.mem_filter.2 ⟨he, by simpa using hkey⟩)
    · by_cases hname : name = .headers
      · rw [hname, valueOf_headers hconfig]
        exact hwritten
      · have hkept := hreads name
        rw [valueOf_withoutHeaders config hname] at hkept
        exact (Draft.reads_with_headers hname).2 hkept

/-- The headers of a configuration pass though they are no object: they can be converted to pairs
that can be written out, and the rest of the configuration gives options. -/
structure LooseHeaders (config : List (Text × Value)) : Prop where
  headers : ∃ v pairs written, field? "headers".toList config = some v ∧
    (∀ fields, v ≠ .object fields) ∧ v.headerPairs = .ok pairs ∧
      Options.writeHeaders pairs = .ok written
  rest : ∃ o, Options.ofEntries (withoutHeaders config) = .ok o

theorem LooseHeaders.refused (h : LooseHeaders config) (hconfig : (Value.object config).Distinct) :
    ¬ ∃ o, Options.ofEntries config = .ok o := by
  obtain ⟨v, _, _, hfield, hobject, -⟩ := h.headers
  rw [exists_ofEntries_iff hconfig, hfield]
  rintro ⟨⟨written, hwritten⟩, -⟩
  cases v with
  | object fields => exact hobject fields rfl
  | _ => cases hwritten

/-- Without switches a configuration gives options just when it does by itself or its headers pass
though they are no object. -/
theorem exists_options_iff_or (hconfig : (Value.object config).Distinct) :
    (∃ o, ({} : Flags).options config = .ok o) ↔
      (∃ o, Options.ofEntries config = .ok o) ∨ LooseHeaders config := by
  rw [exists_options_iff, exists_ofEntries_iff hconfig]
  constructor
  · rintro ⟨⟨pairs, written, hpairs, hwritten⟩, hrest⟩
    cases hfield : field? "headers".toList config with
    | none => exact .inl ⟨⟨[], rfl⟩, hrest⟩
    | some v =>
      rw [hfield, Option.getD_some] at hpairs
      by_cases hobject : ∃ fields, v = .object fields
      · obtain ⟨fields, rfl⟩ := hobject
        cases (Value.headerPairs_object fields).symm.trans hpairs
        exact .inl ⟨⟨written, hwritten⟩, hrest⟩
      · exact .inr ⟨⟨v, pairs, written, hfield, not_exists.1 hobject, hpairs, hwritten⟩, hrest⟩
  · rintro (⟨⟨written, hwritten⟩, hrest⟩ | ⟨hloose, hrest⟩)
    · obtain ⟨fields, -, hpairs, hwritten⟩ := headers_of_configuration hconfig hwritten
      exact ⟨⟨_, written, hpairs, hwritten⟩, hrest⟩
    · obtain ⟨v, pairs, written, hfield, -, hpairs, hwritten⟩ := hloose
      rw [hfield]
      exact ⟨⟨pairs, written, hpairs, hwritten⟩, hrest⟩

end Flags

namespace ResolveCall

/-- The entries of the configuration file of a call; without a file there are none. -/
def configured (c : ResolveCall) : Except SettingsFault (List (Text × Value)) :=
  match c.config with
  | none => .ok []
  | some (path, source) => readConfig path source

/-- The switches of a call with its headers. -/
def given (c : ResolveCall) (headers : List (Text × Text)) : Flags := { c.flags with headers }

variable {c : ResolveCall} {config : List (Text × Value)}

theorem value?_given (c : ResolveCall) (headers : List (Text × Text)) (name : OptionName) :
    (c.given headers).value? name = c.flags.value? name := by
  cases name <;> rfl

/-- A configuration file has each name once. -/
theorem distinct_of_configured (h : c.configured = .ok config) :
    (Value.object config).Distinct := by
  unfold configured at h
  split at h
  · cases h
    exact .empty
  · unfold readConfig at h
    split at h
    · cases h
    · rename_i hread
      cases h
      exact Value.distinct_of_read hread
    · cases h

theorem options_of_configured (h : c.configured = .ok config) (headers : List (Text × Text)) :
    c.options headers = (c.given headers).options config := by
  unfold configured at h
  unfold options
  cases hfile : c.config with
  | none =>
    rw [hfile] at h
    cases h
    rfl
  | some file =>
    rw [hfile] at h
    dsimp only at h ⊢
    rw [h]
    rfl

theorem depth_nonneg_of_enter {s : Surroundings} {uses : List (Use ResolveSwitch)}
    {c' : ResolveCall} {id : ResolveSwitch} (hc : ∀ n ∈ c.flags.maxDepth, 0 ≤ n)
    (h : enter s uses c id = .ok c') : ∀ n ∈ c'.flags.maxDepth, 0 ≤ n := by
  unfold enter at h
  dsimp only at h
  split at h
  · obtain ⟨m, hm, rfl⟩ := map_eq_ok_iff.1 h
    intro n hn
    obtain rfl : m = n := Option.some.inj hn
    unfold readDepth at hm
    dsimp only at hm
    split at hm
    · cases hm
    · split at hm
      · cases hm
      · rename_i hnonneg
        cases hm
        omega
  · obtain ⟨x, -, rfl⟩ := map_eq_ok_iff.1 h
    exact hc
  · obtain ⟨x, -, rfl⟩ := map_eq_ok_iff.1 h
    exact hc
  · cases h
    exact hc

theorem depth_nonneg_of_foldlM {s : Surroundings} {uses : List (Use ResolveSwitch)}
    {ids : List ResolveSwitch} {c' : ResolveCall} (hc : ∀ n ∈ c.flags.maxDepth, 0 ≤ n)
    (h : ids.foldlM (enter s uses) c = .ok c') : ∀ n ∈ c'.flags.maxDepth, 0 ≤ n := by
  induction ids generalizing c with
  | nil =>
    cases h
    exact hc
  | cons id ids ih =>
    rw [List.foldlM_cons] at h
    cases henter : enter s uses c id with
    | error f =>
      rw [henter] at h
      cases h
    | ok d =>
      rw [henter] at h
      exact ih (depth_nonneg_of_enter hc henter) h

/-- The depth that a switch sets is never negative. -/
theorem depth_nonneg_of_read {s : Surroundings} {args : List Text}
    (h : read s args = .ok (.call c)) : ∀ n ∈ c.flags.maxDepth, 0 ≤ n := by
  unfold read at h
  split at h
  · cases h
  · split at h
    · cases h
    · split at h
      · cases h
      · rename_i hfolded
        split at h
        · cases h
        · cases h
          have hdepth := depth_nonneg_of_foldlM (fun n hn => by cases hn) hfolded
          exact hdepth

/-- A call returns with options whenever its configuration by itself gives options: these, with each
option that a switch sets replaced unless another spelling of it stands behind its name, and with
the headers of the switches added. So all switches count just when those that are lost say what the
configuration says anyway. Without switches a call fails just when the configuration by itself does,
unless its headers pass though they are no object. -/
theorem options_of_configuration (hconfig : c.configured = .ok config)
    (hdepth : ∀ n ∈ c.flags.maxDepth, 0 ≤ n) (headers : List (Text × Text)) :
    (∀ o, Options.ofEntries config = .ok o →
      c.options headers = .ok (((c.given headers).heard config).override o) ∧
      (c.options headers = .ok ((c.given headers).override o) ↔
        ∀ name v, c.flags.value? name = some v → ¬ name.Prevails config →
          o.draft.Reads name v)) ∧
    (c.flags = {} → headers = [] →
      ((∃ o, c.options headers = .ok o) ↔
        (∃ o, Options.ofEntries config = .ok o) ∨ Flags.LooseHeaders config) ∧
      (Flags.LooseHeaders config → ¬ ∃ o, Options.ofEntries config = .ok o)) := by
  have hdistinct := distinct_of_configured hconfig
  rw [options_of_configured hconfig]
  refine ⟨fun o ho => ?_, ?_⟩
  · have hoptions := Flags.options_of_ofEntries (f := c.given headers) hdistinct hdepth ho
    refine ⟨hoptions, ?_⟩
    rw [hoptions, Except.ok.injEq, Flags.override_heard_iff (f := c.given headers) hdepth
      (Options.ofEntries_eq_ok_iff.1 ho).2]
    simp only [value?_given]
  · rintro hflags rfl
    have hgiven : c.given [] = {} := by rw [given, hflags]
    rw [hgiven]
    exact ⟨Flags.exists_options_iff_or hdistinct, fun hloose => hloose.refused hdistinct⟩

/-- A command line with a switch that counts, one that is lost and a header, and a call without
switches whose headers are a list. -/
theorem options_of_configuration_spellings :
    (∃ c config o,
      read
        { input := []
          folder := ⟨fun _ => .ok
            "\x7b\"headers\":\x7b\"A\":\"x\"\x7d,\"user_agent\":\"a\",\"userAgent\":\"b\"\x7d".toList,
            fun _ => none⟩ }
        (["--max-depth", "2", "--user-agent", "c", "--config", "o.json"].map String.toList) =
          .ok (.call c) ∧
      c.configured = .ok config ∧ Options.ofEntries config = .ok o ∧
      c.options [("B".toList, "y".toList)] = .ok
        { maxDepth := some 2
          userAgent := some ['b']
          headers := [(['A'], ['x']), (['B'], ['y'])] }) ∧
    ∃ c : ResolveCall, c.config = some ("o.json".toList, "\x7b\"headers\": [\"ab\"]\x7d".toList) ∧
      c.flags = {} ∧ ∃ o, c.options [] = .ok o := by
  constructor
  · have hread : read
        { input := []
          folder := ⟨fun _ => .ok
            "\x7b\"headers\":\x7b\"A\":\"x\"\x7d,\"user_agent\":\"a\",\"userAgent\":\"b\"\x7d".toList,
            fun _ => none⟩ }
        (["--max-depth", "2", "--user-agent", "c", "--config", "o.json"].map String.toList) =
          .ok (.call
            { source := []
              config := some ("o.json".toList,
              "\x7b\"headers\":\x7b\"A\":\"x\"\x7d,\"user_agent\":\"a\",\"userAgent\":\"b\"\x7d".toList)
              flags := { maxDepth := some 2, userAgent := some ['c'] } }) := rfl
    have ho : Options.ofEntries
        [("headers".toList, .object [(['A'], .text ['x'])]), ("user_agent".toList, .text ['a']),
          ("userAgent".toList, .text ['b'])] = .ok
        { userAgent := some ['b']
          headers := [(['A'], ['x'])] } := rfl
    refine ⟨_, _, _, hread, ?configured, ho,
      ((options_of_configuration ?configured (depth_nonneg_of_read hread) _).1 _ ho).1⟩
    simp [configured, readConfig, Value.read, Value.readValue, Value.readFields,
      Value.stringAfterQuote, Value.readString, Value.skip, Value.isSpace, Text.trimStart, put,
      putBy]
  · have hconfig : ({ source := [], config := some ("o.json".toList,
        "\x7b\"headers\": [\"ab\"]\x7d".toList) } : ResolveCall).configured =
          .ok [("headers".toList, .list [.text ['a', 'b']])] := by
      simp [configured, readConfig, Value.read, Value.readValue, Value.readFields, Value.readItems,
        Value.stringAfterQuote, Value.readString, Value.skip, Value.isSpace, Text.trimStart, put,
        putBy]
    have hloose : Flags.LooseHeaders [("headers".toList, .list [.text ['a', 'b']])] :=
      ⟨⟨_, _, _, rfl, by rintro fields ⟨⟩, rfl, rfl⟩, {}, rfl⟩
    have halone := (options_of_configuration hconfig (by rintro n ⟨⟩) []).2 rfl rfl
    exact ⟨_, rfl, rfl, halone.1.2 (.inr hloose)⟩

/-- A switch is lost to another spelling of its option behind its name, and headers that are a list
pass though the check of the options refuses them. -/
theorem switch_lost_to_later_spelling :
    (∃ c : ResolveCall, ∃ config o,
      c.config = some
        ("o.json".toList, "\x7b\"user_agent\": \"a\", \"userAgent\": \"b\"\x7d".toList) ∧
      c.flags = { userAgent := some "c".toList } ∧ c.configured = .ok config ∧
      Options.ofEntries config = .ok o ∧ c.options [] = .ok o ∧
      c.options [] ≠ .ok ((c.given []).override o)) ∧
    ∃ c : ResolveCall, ∃ config f,
      c.config = some ("o.json".toList, "\x7b\"headers\": [\"ab\"]\x7d".toList) ∧ c.flags = {} ∧
      c.configured = .ok config ∧ Options.ofEntries config = .error f ∧
      ∃ o, c.options [] = .ok o := by
  constructor
  · let c : ResolveCall :=
      { source := []
        config := some
          ("o.json".toList, "\x7b\"user_agent\": \"a\", \"userAgent\": \"b\"\x7d".toList)
        flags := { userAgent := some "c".toList } }
    have hconfig : c.configured =
        .ok [("user_agent".toList, .text ['a']), ("userAgent".toList, .text ['b'])] := by
      simp [c, configured, readConfig, Value.read, Value.readValue, Value.readFields,
        Value.stringAfterQuote, Value.readString, Value.skip, Value.isSpace, Text.trimStart, put,
        putBy]
    have hoptions : c.options [] = .ok { userAgent := some ['b'] } := by
      rw [options_of_configured hconfig]
      change ({ userAgent := some "c".toList } : Flags).options _ = _
      rfl
    refine ⟨c, _, _, rfl, rfl, hconfig, rfl, hoptions, fun hsame => ?_⟩
    rw [hoptions] at hsame
    have hagent : some ['b'] = some ['c'] := congrArg Options.userAgent (Except.ok.inj hsame)
    exact absurd hagent (by decide)
  · let c : ResolveCall :=
      { source := [], config := some ("o.json".toList, "\x7b\"headers\": [\"ab\"]\x7d".toList) }
    have hconfig : c.configured = .ok [("headers".toList, .list [.text ['a', 'b']])] := by
      simp [c, configured, readConfig, Value.read, Value.readValue, Value.readFields,
        Value.readItems, Value.stringAfterQuote, Value.readString, Value.skip, Value.isSpace,
        Text.trimStart, put, putBy]
    have hoptions : c.options [] = .ok { headers := [(['a'], ['b'])] } := by
      rw [options_of_configured hconfig]
      rfl
    exact ⟨c, _, _, rfl, rfl, hconfig, rfl, _, hoptions⟩

end ResolveCall

end StyleSplice
