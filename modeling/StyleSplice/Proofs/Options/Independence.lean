import StyleSplice.Proofs.Options.Closed

/-!
# Options are read independently

Each option is what the last of its values is read as, whatever stands between the entries of other
options and in whatever order. So a list of named values gives options just when every value of the
list can be read by itself and the counts that come last are in their bounds.
-/

namespace StyleSplice

theorem mapError_eq_ok_iff {ε ε' α : Type} {x : Except ε α} {g : ε → ε'} {a : α} :
    x.mapError g = .ok a ↔ x = .ok a := by
  cases x with
  | error e => exact iff_of_false nofun nofun
  | ok b =>
    change Except.ok b = .ok a ↔ _
    rw [Except.ok.injEq, Except.ok.injEq]

/-- A setting is what the value is read as. -/
def Draft.Reads (d : Draft) : OptionName → Value → Prop
  | .recursive, v => Options.readBool .recursive v = .ok d.recursive
  | .anchorReferences, v => Options.readBool .anchorReferences v = .ok d.anchorReferences
  | .modernBrowser, v => Options.readBool .modernBrowser v = .ok d.modernBrowser
  | .maxDepth, v => Options.readDepth v = .ok d.maxDepth
  | .workers, v => Options.readInt .workers v = .ok d.workers
  | .userAgent, v => Options.readText .userAgent v = .ok d.userAgent
  | .defaultScheme, v => Options.readText .defaultScheme v = .ok d.defaultScheme
  | .headers, v => Options.readHeaders v = .ok d.headers
  | .timeouts, v => Options.readTimeouts v = .ok d.timeouts

/-- Headers say nothing about the other options. -/
theorem Draft.reads_with_headers {name : OptionName} (hname : name ≠ .headers) {d : Draft}
    {headers : List (Text × Text)} {v : Value} :
    ({ d with headers := headers } : Draft).Reads name v ↔ d.Reads name v := by
  cases name <;> first | exact absurd rfl hname | exact Iff.rfl

theorem Draft.reads_unset (name : OptionName) : ({} : Draft).Reads name name.unset := by
  cases name <;> rfl

/-- Settings with the same headers whose other options are read from the same values are the
same. -/
theorem Draft.eq_of_reads_of_headers {d d' : Draft} (value : OptionName → Value)
    (hheaders : d.headers = d'.headers) (h : ∀ name ≠ .headers, d.Reads name (value name))
    (h' : ∀ name ≠ .headers, d'.Reads name (value name)) : d = d' := by
  have hsame : ∀ {α : Type} {r : Except OptionFault α} {a b : α}, r = .ok a → r = .ok b → a = b :=
    fun ha hb => Except.ok.inj (ha.symm.trans hb)
  have heach : ∀ name ≠ .headers, d.Reads name (value name) ∧ d'.Reads name (value name) :=
    fun name hname => ⟨h name hname, h' name hname⟩
  cases d
  cases d'
  rw [Draft.mk.injEq]
  exact ⟨hsame (heach .recursive nofun).1 (heach .recursive nofun).2,
    hsame (heach .anchorReferences nofun).1 (heach .anchorReferences nofun).2,
    hsame (heach .maxDepth nofun).1 (heach .maxDepth nofun).2,
    hsame (heach .userAgent nofun).1 (heach .userAgent nofun).2,
    hsame (heach .modernBrowser nofun).1 (heach .modernBrowser nofun).2, hheaders,
    hsame (heach .timeouts nofun).1 (heach .timeouts nofun).2,
    hsame (heach .workers nofun).1 (heach .workers nofun).2,
    hsame (heach .defaultScheme nofun).1 (heach .defaultScheme nofun).2⟩

/-- Settings that are read from the same values are the same. -/
theorem Draft.eq_of_reads {d d' : Draft} {value : OptionName → Value}
    (h : ∀ name, d.Reads name (value name)) (h' : ∀ name, d'.Reads name (value name)) : d = d' :=
  eq_of_reads_of_headers value (Except.ok.inj ((h .headers).symm.trans (h' .headers)))
    (fun name _ => h name) fun name _ => h' name

namespace Options

variable {name : OptionName} {v w : Value} {d d' : Draft}

/-- A value is entered if it can be read. Then its option is what it is read as, and the other
options stay what they are. -/
theorem enterValue_cases (d : Draft) (name : OptionName) (v : Value) :
    (∃ d', enterValue d name v = .ok d' ∧ d'.Reads name v ∧
      ∀ other ≠ name, ∀ w, d'.Reads other w ↔ d.Reads other w) ∨
    (∃ f, enterValue d name v = .error f) ∧ ∀ d' : Draft, ¬ d'.Reads name v := by
  have hmap : ∀ {α : Type} {r : Except OptionFault α} {g : α → Draft} {held : Draft → α},
      (∀ a, held (g a) = a) →
      (∀ a, ∀ other ≠ name, ∀ w, (g a).Reads other w ↔ d.Reads other w) →
      (∃ d', r.map g = .ok d' ∧ r = .ok (held d') ∧
        ∀ other ≠ name, ∀ w, d'.Reads other w ↔ d.Reads other w) ∨
      (∃ f, r.map g = .error f) ∧ ∀ d' : Draft, ¬ r = .ok (held d') := by
    intro α r g held hheld hframe
    cases r with
    | ok a => exact .inl ⟨g a, rfl, congrArg _ (hheld a).symm, hframe a⟩
    | error f => exact .inr ⟨⟨f, rfl⟩, fun _ => nofun⟩
  cases name
  all_goals
    refine hmap (fun _ => rfl) fun a other hne w => ?_
    cases other <;> first | exact absurd rfl hne | exact Iff.rfl

/-- An entry that can be read by itself. -/
def Readable (e : Text × Value) : Prop :=
  ∃ name, OptionName.ofText? e.1 = some name ∧ ∃ d : Draft, d.Reads name e.2

/-- The entries as settings that are to be checked. -/
def settingsOf (entries : List (Text × Value)) : List (Text × Setting) :=
  entries.map fun e => (e.1, .value e.2)

/-- Entries are entered if each of them can be read by itself, and each option is then what the last
of its values is read as, starting with what is known of it. -/
theorem enterAll_cases (entries : List (Text × Value)) {known : OptionName → Value}
    (hd : ∀ name, d.Reads name (known name)) :
    (∃ d', enterAll d (settingsOf entries) = .ok d' ∧ (∀ e ∈ entries, Readable e) ∧
      ∀ name, d'.Reads name (lastOf (isSpelling name) (known name) entries)) ∨
    (∃ f, enterAll d (settingsOf entries) = .error f) ∧ ∃ e ∈ entries, ¬ Readable e := by
  induction entries generalizing d known with
  | nil => exact .inl ⟨d, rfl, by simp, hd⟩
  | cons e rest ih =>
    obtain ⟨key, v⟩ := e
    rw [settingsOf, List.map_cons, enterAll, enter]
    dsimp only
    cases hkey : OptionName.ofText? key with
    | none =>
      refine .inr ⟨⟨_, rfl⟩, _, List.mem_cons_self, ?_⟩
      rintro ⟨name, hname, -⟩
      rw [hkey] at hname
      cases hname
    | some name =>
      dsimp only
      rcases enterValue_cases d name v with ⟨d', henter, hown, hframe⟩ | ⟨⟨f, henter⟩, hnone⟩
      · have hd' : ∀ other, d'.Reads other (if isSpelling other key then v else known other) :=
          forall_entered hkey hown fun other hother => (hframe other hother _).2 (hd other)
        rw [henter]
        rcases ih hd' with ⟨d'', hrest, hreadable, hreads⟩ | ⟨hrest, e, he, hunread⟩
        · have hhead : Readable (key, v) := ⟨name, hkey, d', hown⟩
          exact .inl ⟨d'', hrest, List.forall_mem_cons.2 ⟨hhead, hreadable⟩, hreads⟩
        · exact .inr ⟨hrest, e, List.mem_cons_of_mem _ he, hunread⟩
      · rw [henter]
        refine .inr ⟨⟨f, rfl⟩, _, List.mem_cons_self, ?_⟩
        rintro ⟨name', hname', d', hreads⟩
        obtain rfl : name = name' := Option.some.inj (hkey.symm.trans hname')
        exact hnone d' hreads

theorem enterAll_eq_ok_iff {entries : List (Text × Value)} :
    enterAll {} (settingsOf entries) = .ok d ↔
      (∀ e ∈ entries, Readable e) ∧ ∀ name, d.Reads name (valueOf name entries) := by
  rcases enterAll_cases entries Draft.reads_unset with
    ⟨d', henter, hreadable, hreads⟩ | ⟨⟨f, henter⟩, e, he, hunread⟩
  · rw [henter]
    constructor
    · intro h
      cases h
      exact ⟨hreadable, hreads⟩
    · rintro ⟨-, h⟩
      exact congrArg _ (Draft.eq_of_reads hreads h)
  · rw [henter]
    exact iff_of_false nofun fun h => hunread (h.1 e he)

theorem draft_injective {o o' : Options} (h : o.draft = o'.draft) : o = o' := by
  cases o
  cases o'
  simp only [draft, Draft.mk.injEq, Int.ofNat_inj] at h
  obtain ⟨h₁, h₂, hdepth, h₃, h₄, h₅, h₆, h₇, h₈⟩ := h
  have hdepth := Option.map_injective (fun _ _ => Int.ofNat.inj) hdepth
  subst h₁ h₂ hdepth h₃ h₄ h₅ h₆ h₇ h₈
  rfl

/-- Options are what their own settings give. -/
theorem ofDraft_eq_ok_iff {o : Options} : ofDraft d = .ok o ↔ d = o.draft := by
  rcases ofDraft_cases d with ⟨o', hok, rfl⟩ | ⟨n, hn, hdepth, herror⟩ | ⟨hn, herror⟩
  · rw [hok, Except.ok.injEq]
    exact ⟨congrArg draft, draft_injective⟩
  · rw [herror]
    refine iff_of_false nofun ?_
    rintro rfl
    obtain ⟨m, -, rfl⟩ := Option.map_eq_some_iff.1 hdepth
    exact absurd hn (by simp)
  · rw [herror]
    refine iff_of_false nofun ?_
    rintro rfl
    have := o.workers_pos
    have : (o.workers : Int) < 1 := hn
    omega

theorem ofSettings_eq_ok_iff {settings : List (Text × Setting)} {o : Options} :
    ofSettings settings = .ok o ↔ enterAll {} settings = .ok o.draft := by
  unfold ofSettings
  cases enterAll {} settings with
  | error f => exact iff_of_false nofun nofun
  | ok d => rw [Except.ok.injEq, ← ofDraft_eq_ok_iff, mapError_eq_ok_iff]

/-- Entries give options if each of them can be read by itself and each option of these is what the
last of its values is read as. -/
theorem ofEntries_eq_ok_iff {entries : List (Text × Value)} {o : Options} :
    ofEntries entries = .ok o ↔
      (∀ e ∈ entries, Readable e) ∧ ∀ name, o.draft.Reads name (valueOf name entries) :=
  ofSettings_eq_ok_iff.trans enterAll_eq_ok_iff

end Options

end StyleSplice
