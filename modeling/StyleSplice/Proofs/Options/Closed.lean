import StyleSplice.Options.Reader

/-!
# Options are checked

A list of named values becomes options if every value is of the type that its option asks for and
the counts are in their bounds; each option is then what the last value of its name says. Any other
list is refused as a wrong configuration. A few values slip through: a scheme that is null, timeouts
in an object that are no numbers, whole numbers out of the range of floating point or too long for a
message. Without these the check is closed.
-/

namespace StyleSplice

/-- What counts for a key: the last value that the entries give it, or `v` if they give it none. -/
def lastOf {κ α : Type} (p : κ → Bool) (v : α) : List (κ × α) → α
  | [] => v
  | e :: rest => lastOf p (if p e.1 then e.2 else v) rest

theorem lastOf_cases {κ α : Type} (p : κ → Bool) (v : α) (entries : List (κ × α)) :
    lastOf p v entries = v ∨ ∃ e ∈ entries, p e.1 = true ∧ lastOf p v entries = e.2 := by
  induction entries generalizing v with
  | nil => exact .inl rfl
  | cons e rest ih =>
    rcases ih (if p e.1 then e.2 else v) with hlast | ⟨e', hmem, hp, hlast⟩
    · by_cases hp : p e.1 = true
      · rw [if_pos hp] at hlast
        exact .inr ⟨e, by simp, hp, by rw [lastOf, if_pos hp, hlast]⟩
      · rw [if_neg hp] at hlast
        exact .inl (by rw [lastOf, if_neg hp, hlast])
    · exact .inr ⟨e', by simp [hmem], hp, hlast⟩

namespace Value

/-- A number of a configuration in floating point. Truth values and texts are no numbers. -/
def number? : Value → Option Double
  | .int n => Double.ofInt? n
  | .double x => some x
  | _ => none

@[simp] theorem number?_double (x : Double) : (Value.double x).number? = some x := rfl

theorem toDouble_of_number? {v : Value} {x : Double} (h : v.number? = some x) :
    v.toDouble = .ok x := by
  cases v with
  | int n =>
    have hn : Double.ofInt? n = some x := h
    unfold toDouble
    dsimp only [asInt?]
    rw [hn]
  | double y =>
    cases h
    rfl
  | _ => cases h

/-- What a conversion fails with is no fault of the configuration, and its message shows no value. -/
theorem fault_of_toDouble {v : Value} {f : OptionFault} (h : v.toDouble = .error f) :
    f.kind ≠ .configuration ∧ f.raised = f := by
  unfold toDouble at h
  split at h
  · cases h
  · split at h
    · cases h
    · cases h
      exact ⟨OptionFaultKind.noConfusion, rfl⟩
  · split at h
    · split at h
      · cases h
      · cases h
        exact ⟨OptionFaultKind.noConfusion, rfl⟩
    · cases h
      exact ⟨OptionFaultKind.noConfusion, rfl⟩

theorem haveWritable_eq_all (fields : List (Text × Value)) :
    haveWritable fields = fields.all fun x => x.2.isWritable := by
  induction fields with
  | nil => rfl
  | cons x fields ih => rw [haveWritable, List.all_cons, ih]

end Value

/-- A fault of the configuration that shows a value comes up as one if the value can be written. -/
theorem OptionFault.raised_iff {f : OptionFault} {v : Value} (hkind : f.kind = .configuration)
    (hshown : f.shown? = some v) : f.raised.kind = .configuration ↔ v.isWritable = true := by
  rw [raised, hshown, Option.map_some, Option.getD_some]
  by_cases hv : v.isWritable = true
  · rw [if_pos hv]
    exact iff_of_true hkind hv
  · rw [if_neg hv]
    exact iff_of_false OptionFaultKind.noConfusion hv

/-- The fields that timeouts can have. -/
def IsTimeoutField (k : Text) : Prop := k = "connect".toList ∨ k = "read".toList

/-- The timeouts are what the value says: a number for both, or an object with a number for each of
its fields, what it leaves out being as it is without it. -/
def Timeouts.Holds (t : Timeouts) : Value → Prop
  | .object fields =>
    (∀ x ∈ fields, IsTimeoutField x.1 ∧ x.2.number?.isSome = true) ∧
      (lastOf (· == "connect".toList) (.double ({} : Timeouts).connect) fields).number? =
        some t.connect ∧
      (lastOf (· == "read".toList) (.double ({} : Timeouts).read) fields).number? = some t.read
  | v => v.number? = some t.connect ∧ t.read = t.connect

/-- A setting is what the value says, and the value is of the type that the setting asks for. -/
def Draft.Holds (d : Draft) : OptionName → Value → Prop
  | .recursive, v => v = .bool d.recursive
  | .anchorReferences, v => v = .bool d.anchorReferences
  | .modernBrowser, v => v = .bool d.modernBrowser
  | .maxDepth, v => v = d.maxDepth.elim .null .int
  | .workers, v => v = .int d.workers
  | .userAgent, v => v = d.userAgent.elim .null .text
  | .defaultScheme, v => ∃ s, v = .text s ∧ d.defaultScheme = some s
  | .headers, v => ∃ fields, v = .object fields ∧
      d.headers = fields.foldl (fun hs x => put x.1 x.2.plain hs) []
  | .timeouts, v => d.timeouts.Holds v

/-- The value that stands for an option that is not set. -/
def OptionName.unset : OptionName → Value
  | .recursive | .anchorReferences | .modernBrowser => .bool false
  | .maxDepth | .userAgent => .null
  | .workers => .int 8
  | .defaultScheme => .text "https".toList
  | .headers | .timeouts => .object []

theorem Timeouts.holds_unset : ({} : Timeouts).Holds (.object []) := ⟨by simp, rfl, rfl⟩

theorem Draft.holds_unset (name : OptionName) : ({} : Draft).Holds name name.unset := by
  cases name with
  | defaultScheme => exact ⟨_, rfl, rfl⟩
  | headers => exact ⟨[], rfl, rfl⟩
  | timeouts => exact Timeouts.holds_unset
  | _ => rfl

namespace OptionName

/-- The value is of the type that the option asks for. -/
def Fits : OptionName → Value → Prop
  | .recursive, v | .anchorReferences, v | .modernBrowser, v => ∃ b, v = .bool b
  | .maxDepth, v => v = .null ∨ ∃ n, v = .int n
  | .workers, v => ∃ n, v = .int n
  | .userAgent, v => v = .null ∨ ∃ s, v = .text s
  | .defaultScheme, v => ∃ s, v = .text s
  | .headers, v => ∃ fields, v = .object fields
  | .timeouts, .object fields => ∀ x ∈ fields, IsTimeoutField x.1 ∧ x.2.number?.isSome = true
  | .timeouts, v => v.number?.isSome = true

/-- A value that is read as something else than its type or refused in another way than as a wrong
configuration. -/
def Misread : OptionName → Value → Prop
  | .maxDepth, v | .workers, v => v.isWritable = false ∧ ∀ n, v ≠ .int n
  | .defaultScheme, v => v = .null ∨ v.isWritable = false
  | .timeouts, .int n => Double.ofInt? n = none
  | .timeouts, .object fields =>
    (∀ x ∈ fields, IsTimeoutField x.1) ∧ ∃ x ∈ fields, x.2.number? = none
  | _, v => v.isWritable = false

/-- The least number that an option may have. -/
def least? : OptionName → Option Int
  | .maxDepth => some 0
  | .workers => some 1
  | _ => none

/-- A number is not below the least one that its option may have. -/
def InBounds (name : OptionName) (v : Value) : Prop :=
  ∀ n, v = .int n → ∀ least ∈ name.least?, least ≤ n

/-- A number out of the bounds of its option that has too many digits for a message. -/
def Overlong (name : OptionName) (v : Value) : Prop :=
  ∃ n, v = .int n ∧ v.isWritable = false ∧ ∃ least ∈ name.least?, n < least

/-- A value that slips through the check. -/
def Slips (name : OptionName) (v : Value) : Prop := name.Misread v ∨ name.Overlong v

end OptionName

/-- A reading is checked if it gives what the value says, or a fault of the configuration for a value
that does not fit, just when the value does not slip through. -/
def Checked {α : Type} (good : α → Prop) (fits slips : Prop) : Except OptionFault α → Prop
  | .ok a => good a ↔ ¬ slips
  | .error f => (f.raised.kind = .configuration ↔ ¬ slips) ∧ (fits → slips)

theorem Checked.map {α β : Type} {good : α → Prop} {good' : β → Prop} {fits slips : Prop}
    {r : Except OptionFault α} (h : Checked good fits slips r) (g : α → β)
    (hg : ∀ a, good' (g a) ↔ good a) : Checked good' fits slips (r.map g) := by
  cases r with
  | ok a => exact (hg a).trans h
  | error f => exact h

/-- A value that does not fit and is shown slips through if it cannot be written. -/
theorem checked_refused {α : Type} {good : α → Prop} {fits slips : Prop} {f : OptionFault} {v : Value}
    (hkind : f.kind = .configuration) (hshown : f.shown? = some v) (hfits : ¬ fits)
    (hslips : slips ↔ v.isWritable = false) :
    Checked good fits slips (.error f : Except OptionFault α) := by
  refine ⟨?_, fun h => absurd h hfits⟩
  rw [OptionFault.raised_iff hkind hshown, hslips, Bool.not_eq_false]

namespace Options

variable {name : OptionName} {v : Value} {d d' : Draft}

theorem readBool_checked (name : OptionName) (v : Value) :
    Checked (fun b => v = .bool b) (∃ b, v = .bool b) (v.isWritable = false) (readBool name v) := by
  cases v with
  | bool b => exact iff_of_true rfl Bool.noConfusion
  | _ => exact checked_refused rfl rfl (by simp) Iff.rfl

theorem readInt_checked (name : OptionName) (v : Value) :
    Checked (fun n => v = .int n) (∃ n, v = .int n) (v.isWritable = false ∧ ∀ n, v ≠ .int n)
      (readInt name v) := by
  cases v with
  | int n => exact iff_of_true rfl fun h => h.2 n rfl
  | _ => exact checked_refused rfl rfl (by simp) (by simp)

theorem readDepth_checked (v : Value) :
    Checked (fun n => v = n.elim .null .int) (v = .null ∨ ∃ n, v = .int n)
      (v.isWritable = false ∧ ∀ n, v ≠ .int n) (readDepth v) := by
  cases v with
  | null => exact iff_of_true rfl fun h => Bool.noConfusion h.1
  | int n => exact iff_of_true rfl fun h => h.2 n rfl
  | _ => exact checked_refused rfl rfl (by simp) (by simp)

theorem readText_checked (name : OptionName) (v : Value) :
    Checked (fun s => v = s.elim .null .text) (v = .null ∨ ∃ s, v = .text s) (v.isWritable = false)
      (readText name v) := by
  cases v with
  | null | text s => exact iff_of_true rfl Bool.noConfusion
  | _ => exact checked_refused rfl rfl (by simp) Iff.rfl

/-- Where a text is needed, null slips through. -/
theorem readText_some_checked (name : OptionName) (v : Value) :
    Checked (fun s => ∃ t, v = .text t ∧ s = some t) (∃ s, v = .text s)
      (v = .null ∨ v.isWritable = false) (readText name v) := by
  cases v with
  | null => exact iff_of_false (by simp) (by simp)
  | text s => exact iff_of_true ⟨s, rfl, rfl⟩ (by simp [Value.isWritable])
  | _ => exact checked_refused rfl rfl (by simp) (by simp)

theorem readHeaders_checked (v : Value) :
    Checked (fun hs => ∃ fields, v = .object fields ∧
      hs = fields.foldl (fun hs x => put x.1 x.2.plain hs) []) (∃ fields, v = .object fields)
      (v.isWritable = false) (readHeaders v) := by
  cases v with
  | object fields =>
    have hall : ((fields.map fun x => (Value.text x.1, x.2)).all
        fun x => x.1.isWritable && x.2.isWritable) = (Value.object fields).isWritable := by
      rw [Value.isWritable, Value.haveWritable_eq_all, List.all_map]
      exact List.all_congr rfl fun x => Bool.true_and _
    rw [readHeaders, writeHeaders, hall]
    by_cases hw : (Value.object fields).isWritable = true
    · rw [if_pos hw]
      refine iff_of_true ⟨fields, rfl, ?_⟩ (by simp [hw])
      rw [List.foldl_map]
      rfl
    · rw [if_neg hw]
      have hslips : (Value.object fields).isWritable = false := by simpa using hw
      exact ⟨iff_of_false OptionFaultKind.noConfusion (not_not_intro hslips), fun _ => hslips⟩
  | _ => exact checked_refused rfl rfl (by simp) Iff.rfl

/-- Fields that all have numbers are read. -/
theorem readTimeoutFields_of_numbers {fields : List (Text × Value)} {t : Timeouts}
    {connect read : Value} (hknown : ∀ x ∈ fields, IsTimeoutField x.1)
    (hnumbers : ∀ x ∈ fields, x.2.number?.isSome = true)
    (hconnect : connect.number? = some t.connect) (hread : read.number? = some t.read) :
    ∃ t', readTimeoutFields t fields = .ok t' ∧
      (lastOf (· == "connect".toList) connect fields).number? = some t'.connect ∧
      (lastOf (· == "read".toList) read fields).number? = some t'.read := by
  induction fields generalizing t connect read with
  | nil => exact ⟨t, rfl, hconnect, hread⟩
  | cons x fields ih =>
    obtain ⟨k, v⟩ := x
    obtain ⟨y, hy⟩ := Option.isSome_iff_exists.1 (hnumbers _ List.mem_cons_self)
    have ih := @ih
    rw [readTimeoutFields, Value.toDouble_of_number? hy]
    dsimp only
    rcases hknown _ List.mem_cons_self with hk | hk
    all_goals
      obtain rfl : k = _ := hk
      exact ih (fun x hx => hknown x (List.mem_cons_of_mem _ hx))
        (fun x hx => hnumbers x (List.mem_cons_of_mem _ hx)) (by assumption) (by assumption)

theorem fault_of_readTimeoutFields {fields : List (Text × Value)} {t : Timeouts} {f : OptionFault}
    (h : readTimeoutFields t fields = .error f) : f.kind ≠ .configuration ∧ f.raised = f := by
  induction fields generalizing t with
  | nil => cases h
  | cons x fields ih =>
    rw [readTimeoutFields] at h
    split at h
    · rename_i hf
      cases h
      exact Value.fault_of_toDouble hf
    · exact ih h

theorem readTimeouts_checked (v : Value) :
    Checked (fun t => t.Holds v) (OptionName.timeouts.Fits v) (OptionName.timeouts.Misread v)
      (readTimeouts v) := by
  cases v with
  | double x => exact iff_of_true ⟨rfl, rfl⟩ Bool.noConfusion
  | int n =>
    unfold readTimeouts
    dsimp only
    cases hn : Double.ofInt? n with
    | some x =>
      rw [Value.toDouble_of_number? (v := .int n) hn]
      exact iff_of_true ⟨hn, rfl⟩ (by simp [OptionName.Misread, hn])
    | none =>
      have hrefused : (Value.int n).toDouble = .error .tooLarge := by
        unfold Value.toDouble
        dsimp only [Value.asInt?]
        rw [hn]
      rw [hrefused]
      exact ⟨iff_of_false OptionFaultKind.noConfusion (not_not_intro hn), fun _ => hn⟩
  | object fields =>
    have hempty : ((fields.map Prod.fst).filter fun k =>
        k ≠ "connect".toList ∧ k ≠ "read".toList).isEmpty = true ↔
        ∀ x ∈ fields, IsTimeoutField x.1 := by
      rw [List.isEmpty_iff, List.filter_eq_nil_iff, List.forall_mem_map]
      simp only [decide_eq_true_eq, ← not_or, Decidable.not_not, IsTimeoutField]
    unfold readTimeouts
    dsimp only
    by_cases hknown : ∀ x ∈ fields, IsTimeoutField x.1
    · rw [if_pos (hempty.2 hknown)]
      by_cases hnumbers : ∀ x ∈ fields, x.2.number?.isSome = true
      · obtain ⟨t, hread, hlast⟩ := readTimeoutFields_of_numbers (t := {}) hknown hnumbers
          (Value.number?_double _) (Value.number?_double _)
        rw [hread]
        refine iff_of_true ⟨fun x hx => ⟨hknown x hx, hnumbers x hx⟩, hlast⟩ ?_
        rintro ⟨-, x, hx, hnone⟩
        have hsome := hnumbers x hx
        rw [hnone] at hsome
        cases hsome
      · -- A truth value or the text of a number is read all the same.
        have hmisread : OptionName.timeouts.Misread (.object fields) :=
          ⟨hknown, by simpa using hnumbers⟩
        cases hread : readTimeoutFields {} fields with
        | ok t =>
          exact iff_of_false (fun hholds => hnumbers fun x hx => (hholds.1 x hx).2)
            (not_not_intro hmisread)
        | error f =>
          obtain ⟨hkind, hraised⟩ := fault_of_readTimeoutFields hread
          exact ⟨iff_of_false (by rw [hraised]; exact hkind) (not_not_intro hmisread),
            fun _ => hmisread⟩
    · rw [if_neg fun h => hknown (hempty.1 h)]
      exact ⟨iff_of_true rfl fun h => hknown h.1,
        fun hfits => absurd (fun x hx => (hfits x hx).1) hknown⟩
  | _ => exact checked_refused rfl rfl Bool.noConfusion Iff.rfl

/-- One value sets its option to what it says, unless it slips through. -/
theorem enterValue_checked (d : Draft) (name : OptionName) (v : Value) :
    Checked (fun d' => d'.Holds name v) (name.Fits v) (name.Misread v) (enterValue d name v) := by
  cases name with
  | recursive => exact (readBool_checked _ v).map _ fun _ => Iff.rfl
  | anchorReferences => exact (readBool_checked _ v).map _ fun _ => Iff.rfl
  | modernBrowser => exact (readBool_checked _ v).map _ fun _ => Iff.rfl
  | maxDepth => exact (readDepth_checked v).map _ fun _ => Iff.rfl
  | workers => exact (readInt_checked _ v).map _ fun _ => Iff.rfl
  | userAgent => exact (readText_checked _ v).map _ fun _ => Iff.rfl
  | defaultScheme => exact (readText_some_checked _ v).map _ fun _ => Iff.rfl
  | headers => exact (readHeaders_checked v).map _ fun _ => Iff.rfl
  | timeouts => exact (readTimeouts_checked v).map _ fun _ => Iff.rfl

/-- The options of other names stay as they are. -/
theorem enterValue_frame (h : enterValue d name v = .ok d') {other : OptionName}
    (hne : other ≠ name) (w : Value) : d'.Holds other w ↔ d.Holds other w := by
  have hmap : ∀ {α : Type} {r : Except OptionFault α} {g : α → Draft},
      r.map g = .ok d' → ∃ a, d' = g a := by
    intro α r g hr
    cases r with
    | ok a => exact ⟨a, (Except.ok.inj hr).symm⟩
    | error f => cases hr
  cases name
  all_goals
    obtain ⟨a, rfl⟩ := hmap h
    cases other <;> first | exact absurd rfl hne | exact Iff.rfl

/-- Options as settings whose counts are not yet checked. -/
def draft (o : Options) : Draft where
  recursive := o.recursive
  anchorReferences := o.anchorReferences
  maxDepth := o.maxDepth.map Int.ofNat
  userAgent := o.userAgent
  modernBrowser := o.modernBrowser
  headers := o.headers
  timeouts := o.timeouts
  workers := o.workers
  defaultScheme := o.defaultScheme

/-- Settings become options unless a count is out of its bounds. -/
theorem ofDraft_cases (d : Draft) :
    (∃ o, ofDraft d = .ok o ∧ o.draft = d) ∨
      (∃ n < 0, d.maxDepth = some n ∧ ofDraft d = .error (.negativeDepth n)) ∨
        d.workers < 1 ∧ ofDraft d = .error (.noWorkers d.workers) := by
  unfold ofDraft
  dsimp only
  split
  · rename_i n hn
    rw [Option.filter_eq_some_iff] at hn
    exact .inr (.inl ⟨n, by simpa using hn.2, hn.1, rfl⟩)
  · rename_i hdepth
    split
    · rename_i hworkers
      refine .inl ⟨_, rfl, ?_⟩
      have hback : (d.maxDepth.map Int.toNat).map Int.ofNat = d.maxDepth := by
        cases hd : d.maxDepth with
        | none => rfl
        | some n =>
          rw [hd, Option.filter_eq_none_iff] at hdepth
          have hn : 0 ≤ n := by simpa using hdepth n rfl
          simp [Int.toNat_of_nonneg hn]
      rw [draft, hback, Int.toNat_of_nonneg (Int.le_of_lt hworkers)]
    · rename_i hworkers
      exact .inr (.inr ⟨by omega, rfl⟩)

/-- The options that a list of named values gives. -/
def ofEntries (entries : List (Text × Value)) : Except OptionFault Options :=
  ofSettings (entries.map fun e => (e.1, .value e.2))

/-- Whether a key is a spelling of the option. -/
def isSpelling (name : OptionName) (key : Text) : Bool := OptionName.ofText? key = some name

/-- What one entry says is known of its own option, and what was known before of the others. -/
theorem forall_entered {key : Text} {known : OptionName → Value}
    {P : OptionName → Value → Prop} (hkey : OptionName.ofText? key = some name) (hown : P name v)
    (hothers : ∀ other, other ≠ name → P other (known other)) (other : OptionName) :
    P other (if isSpelling other key then v else known other) := by
  by_cases hother : other = name
  · rw [hother, isSpelling, hkey, if_pos (decide_eq_true rfl)]
    exact hown
  · rw [isSpelling, hkey, if_neg (by simpa using Ne.symm hother)]
    exact hothers other hother

/-- The value that counts for an option. -/
def valueOf (name : OptionName) (entries : List (Text × Value)) : Value :=
  lastOf (isSpelling name) name.unset entries

/-- Every entry names an option and fits it, and no number that counts is out of its bounds. -/
structure Admissible (entries : List (Text × Value)) : Prop where
  fits : ∀ e ∈ entries, ∃ name, OptionName.ofText? e.1 = some name ∧ name.Fits e.2
  inBounds : ∀ name : OptionName, name.InBounds (valueOf name entries)

/-- Admissible entries give options that hold what the last value of each name says, and all others
are refused as a wrong configuration. -/
def Closed (entries : List (Text × Value)) : Prop :=
  match ofEntries entries with
  | .ok o => Admissible entries ∧ ∀ name, o.draft.Holds name (valueOf name entries)
  | .error f => ¬ Admissible entries ∧ f.kind = .configuration

/-- A value that an option holds fits it. -/
theorem fits_of_holds (h : d.Holds name v) : name.Fits v := by
  cases name with
  | recursive | anchorReferences | modernBrowser | workers => exact ⟨_, h⟩
  | maxDepth =>
    have hv : v = d.maxDepth.elim .null .int := h
    cases hd : d.maxDepth with
    | none => exact .inl (by rw [hv, hd]; rfl)
    | some n => exact .inr ⟨n, by rw [hv, hd]; rfl⟩
  | userAgent =>
    have hv : v = d.userAgent.elim .null .text := h
    cases hd : d.userAgent with
    | none => exact .inl (by rw [hv, hd]; rfl)
    | some s => exact .inr ⟨s, by rw [hv, hd]; rfl⟩
  | defaultScheme | headers => exact h.imp fun _ => And.left
  | timeouts =>
    cases v with
    | object fields => exact h.1
    | _ => exact Option.isSome_iff_exists.2 ⟨_, h.1⟩

/-- Values that do not slip through are entered one by one, or one that does not fit is refused. -/
theorem enterAll_spec {entries : List (Text × Value)} {known : OptionName → Value}
    (hentries : ∀ e ∈ entries, ∀ name, OptionName.ofText? e.1 = some name → ¬ name.Misread e.2)
    (hd : ∀ name, d.Holds name (known name)) :
    match enterAll d (entries.map fun e => (e.1, .value e.2)) with
    | .ok d' => (∀ e ∈ entries, ∃ name, OptionName.ofText? e.1 = some name ∧ name.Fits e.2) ∧
        ∀ name, d'.Holds name (lastOf (isSpelling name) (known name) entries)
    | .error f => (∃ e ∈ entries, ∀ name, OptionName.ofText? e.1 = some name → ¬ name.Fits e.2) ∧
        f.raised.kind = .configuration := by
  induction entries generalizing d known with
  | nil => exact ⟨by simp, hd⟩
  | cons e entries ih =>
    obtain ⟨key, v⟩ := e
    rw [List.map_cons, enterAll]
    dsimp only
    rw [enter]
    cases hkey : OptionName.ofText? key with
    | none => exact ⟨⟨_, List.mem_cons_self, by simp [hkey]⟩, rfl⟩
    | some name =>
      have hmisread : ¬ name.Misread v := hentries _ List.mem_cons_self name hkey
      have hchecked := enterValue_checked d name v
      dsimp only
      cases henter : enterValue d name v with
      | error f =>
        rw [henter] at hchecked
        refine ⟨⟨_, List.mem_cons_self, fun name' hname' hfits => ?_⟩, hchecked.1.2 hmisread⟩
        obtain rfl : name = name' := Option.some.inj (hkey.symm.trans hname')
        exact hmisread (hchecked.2 hfits)
      | ok d' =>
        rw [henter] at hchecked
        have hown : d'.Holds name v := hchecked.2 hmisread
        have hd' : ∀ other, d'.Holds other (if isSpelling other key then v else known other) :=
          forall_entered hkey hown fun other hother => (enterValue_frame henter hother _).2 (hd other)
        have hrest := ih (fun e he => hentries e (List.mem_cons_of_mem _ he)) hd'
        dsimp only
        cases hall : enterAll d' (entries.map fun e => (e.1, .value e.2)) with
        | error f =>
          rw [hall] at hrest
          obtain ⟨⟨e, he, hwrong⟩, hkind⟩ := hrest
          exact ⟨⟨e, List.mem_cons_of_mem _ he, hwrong⟩, hkind⟩
        | ok d'' =>
          rw [hall] at hrest
          exact ⟨List.forall_mem_cons.2 ⟨⟨name, hkey, fits_of_holds hown⟩, hrest.1⟩, hrest.2⟩

/-- The counts of options are in their bounds. -/
theorem inBounds_of_holds {o : Options} (h : o.draft.Holds name v) : name.InBounds v := by
  intro n hv least hleast
  cases name with
  | maxDepth =>
    obtain rfl : 0 = least := Option.some.inj hleast
    have hdepth : v = (o.maxDepth.map Int.ofNat).elim .null .int := h
    cases hd : o.maxDepth with
    | none =>
      rw [hd, hv] at hdepth
      cases hdepth
    | some m =>
      rw [hd, hv] at hdepth
      obtain rfl : n = m := Value.int.inj hdepth
      exact Int.natCast_nonneg m
  | workers =>
    obtain rfl : 1 = least := Option.some.inj hleast
    have hworkers : n = o.workers := Value.int.inj (hv.symm.trans h)
    have := o.workers_pos
    omega
  | _ => cases hleast

/-- A number out of bounds that counts for an option can be written if no entry is overlong. -/
theorem isWritable_of_valueOf {entries : List (Text × Value)} {n least : Int}
    (hentries : ∀ e ∈ entries, ∀ name, OptionName.ofText? e.1 = some name → ¬ name.Overlong e.2)
    (hvalue : valueOf name entries = .int n) (hunset : name.unset ≠ .int n)
    (hleast : name.least? = some least) (hn : n < least) : (Value.int n).isWritable = true := by
  rcases lastOf_cases (isSpelling name) name.unset entries with hlast | ⟨e, he, hkey, hlast⟩
  · exact absurd (hlast.symm.trans hvalue) hunset
  · have hv : e.2 = .int n := hlast.symm.trans hvalue
    cases hw : (Value.int n).isWritable with
    | true => rfl
    | false =>
      exact absurd ⟨n, hv, hv ▸ hw, least, hleast, hn⟩
        (hentries e he name (of_decide_eq_true hkey))

theorem closed_of_not_slips {entries : List (Text × Value)}
    (h : ∀ e ∈ entries, ∀ name, OptionName.ofText? e.1 = some name → ¬ name.Slips e.2) :
    Closed entries := by
  have hentered := enterAll_spec (fun e he name hname hm => h e he name hname (.inl hm))
    Draft.holds_unset
  have hbounds : ∀ e ∈ entries, ∀ name, OptionName.ofText? e.1 = some name → ¬ name.Overlong e.2 :=
    fun e he name hname ho => h e he name hname (.inr ho)
  unfold Closed ofEntries ofSettings
  cases henter : enterAll {} (entries.map fun e => (e.1, .value e.2)) with
  | error f =>
    rw [henter] at hentered
    obtain ⟨⟨e, he, hwrong⟩, hkind⟩ := hentered
    refine ⟨fun hadmissible => ?_, hkind⟩
    obtain ⟨name, hname, hfits⟩ := hadmissible.fits e he
    exact hwrong name hname hfits
  | ok d =>
    rw [henter] at hentered
    obtain ⟨hfits, hholds⟩ := hentered
    dsimp only
    rcases ofDraft_cases d with ⟨o, ho, rfl⟩ | ⟨n, hn, hdepth, hrefused⟩ | ⟨hn, hrefused⟩
    · rw [ho]
      exact ⟨⟨hfits, fun name => inBounds_of_holds (hholds name)⟩, hholds⟩
    · -- The bounds are checked last, so the entry with the number has to be found again.
      have hvalue : valueOf .maxDepth entries = .int n :=
        (hholds .maxDepth).trans (by rw [hdepth]; rfl)
      rw [hrefused]
      refine ⟨fun hadmissible => ?_, (OptionFault.raised_iff rfl rfl).2
        (isWritable_of_valueOf hbounds hvalue Value.noConfusion rfl hn)⟩
      have := hadmissible.inBounds .maxDepth n hvalue 0 rfl
      omega
    · have hunset : OptionName.workers.unset ≠ .int d.workers := by
        intro hsame
        have : (8 : Int) = d.workers := Value.int.inj hsame
        omega
      rw [hrefused]
      refine ⟨fun hadmissible => ?_, (OptionFault.raised_iff rfl rfl).2
        (isWritable_of_valueOf hbounds (hholds .workers) hunset rfl hn)⟩
      have := hadmissible.inBounds .workers _ (hholds .workers) 1 rfl
      omega

theorem ofEntries_singleton {key : Text} (hkey : OptionName.ofText? key = some name) :
    ofEntries [(key, v)] =
      match enterValue {} name v with
      | .error f => .error f.raised
      | .ok d => (ofDraft d).mapError OptionFault.raised := by
  unfold ofEntries ofSettings
  rw [List.map_cons, List.map_nil, enterAll]
  dsimp only
  rw [enter, hkey]
  dsimp only
  cases enterValue {} name v <;> rfl

theorem valueOf_singleton {key : Text} (hkey : OptionName.ofText? key = some name) :
    valueOf name [(key, v)] = v := by
  rw [valueOf, lastOf, isSpelling, hkey, if_pos (decide_eq_true rfl), lastOf]

/-- A misread value does not touch the counts. -/
theorem counts_of_misread (hmisread : name.Misread v) (h : enterValue {} name v = .ok d) :
    d.maxDepth = none ∧ d.workers = 8 := by
  have hframe := fun other (hne : other ≠ name) =>
    (enterValue_frame h hne other.unset).2 (Draft.holds_unset other)
  have hdepth : OptionName.maxDepth ≠ name → d.maxDepth = none := by
    intro hne
    have hnull : Value.null = d.maxDepth.elim .null .int := hframe _ hne
    cases hd : d.maxDepth with
    | none => rfl
    | some n =>
      rw [hd] at hnull
      cases hnull
  have hworkers : OptionName.workers ≠ name → d.workers = 8 :=
    fun hne => (Value.int.inj (hframe _ hne)).symm
  cases name with
  | maxDepth =>
    obtain ⟨hw, hint⟩ := hmisread
    cases v with
    | null => cases hw
    | int n => exact absurd rfl (hint n)
    | _ => cases h
  | workers =>
    obtain ⟨hw, hint⟩ := hmisread
    cases v with
    | int n => exact absurd rfl (hint n)
    | _ => cases h
  | _ => exact ⟨hdepth OptionName.noConfusion, hworkers OptionName.noConfusion⟩

/-- A number out of its bounds is entered, and its refusal cannot be written if it is overlong. -/
theorem fault_of_overlong (h : name.Overlong v) :
    ∃ d f, enterValue {} name v = .ok d ∧ ofDraft d = .error f ∧ f.raised = .tooManyDigits := by
  obtain ⟨n, rfl, hw, least, hleast, hn⟩ := h
  have hraised : ∀ f : OptionFault, f.shown? = some (.int n) → f.raised = .tooManyDigits := by
    intro f hf
    rw [OptionFault.raised, hf, Option.map_some, hw]
    rfl
  cases name with
  | maxDepth =>
    obtain rfl : 0 = least := Option.some.inj hleast
    refine ⟨{ maxDepth := some n }, .negativeDepth n, rfl, ?_, hraised _ rfl⟩
    rcases ofDraft_cases { maxDepth := some n } with ⟨o, -, ho⟩ | ⟨m, -, hm, hrefused⟩ | ⟨hm, -⟩
    · have hdepth : o.maxDepth.map Int.ofNat = some n := congrArg Draft.maxDepth ho
      obtain ⟨m, -, rfl⟩ := Option.map_eq_some_iff.1 hdepth
      exact absurd hn (by simp)
    · obtain rfl := Option.some.inj hm
      exact hrefused
    · exact absurd (show (8 : Int) < 1 from hm) (by decide)
  | workers =>
    obtain rfl : 1 = least := Option.some.inj hleast
    refine ⟨{ workers := n }, .noWorkers n, rfl, ?_, hraised _ rfl⟩
    rcases ofDraft_cases { workers := n } with ⟨o, -, ho⟩ | ⟨m, -, hm, -⟩ | ⟨-, hrefused⟩
    · have hworkers : (o.workers : Int) = n := congrArg Draft.workers ho
      have := o.workers_pos
      omega
    · cases hm
    · exact hrefused
  | _ => cases hleast

/-- A single value that slips through is misread, or refused in another way. -/
theorem not_closed_of_slips {key : Text} (hkey : OptionName.ofText? key = some name)
    (h : name.Slips v) : ¬ Closed [(key, v)] := by
  unfold Closed
  rw [ofEntries_singleton hkey]
  rcases h with hmisread | hoverlong
  · have hchecked := enterValue_checked {} name v
    cases henter : enterValue {} name v with
    | error f =>
      rw [henter] at hchecked
      exact fun hclosed => hchecked.1.1 hclosed.2 hmisread
    | ok d =>
      rw [henter] at hchecked
      obtain ⟨hdepth, hworkers⟩ := counts_of_misread hmisread henter
      dsimp only
      rcases ofDraft_cases d with ⟨o, ho, rfl⟩ | ⟨n, -, hsome, -⟩ | ⟨hn, -⟩
      · rw [ho]
        intro hclosed
        have hown := hclosed.2 name
        rw [valueOf_singleton hkey] at hown
        exact hchecked.1 hown hmisread
      · rw [hdepth] at hsome
        cases hsome
      · omega
  · obtain ⟨d, f, henter, hrefused, hraised⟩ := fault_of_overlong hoverlong
    rw [henter]
    dsimp only
    rw [hrefused]
    intro hclosed
    have hkind : f.raised.kind = .configuration := hclosed.2
    rw [hraised] at hkind
    cases hkind

/-- The check is closed as long as no value slips through, and a value by itself is checked only
then. -/
theorem closed_unless_slips (entries : List (Text × Value)) :
    ((∀ e ∈ entries, ∀ name, OptionName.ofText? e.1 = some name → ¬ name.Slips e.2) →
      Closed entries) ∧
    ∀ e name, entries = [e] → OptionName.ofText? e.1 = some name →
      (Closed entries ↔ ¬ name.Slips e.2) := by
  refine ⟨closed_of_not_slips, ?_⟩
  rintro ⟨key, v⟩ name rfl hkey
  constructor
  · intro hclosed hslips
    exact not_closed_of_slips hkey hslips hclosed
  · intro hslips
    refine closed_of_not_slips fun e he name' hname' => ?_
    obtain rfl := List.mem_singleton.1 he
    obtain rfl : name = name' := Option.some.inj (hkey.symm.trans hname')
    exact hslips

/-- Both spellings of one option, timeouts in an object, and a header that is a number. -/
theorem closed_unless_slips_mixed :
    Closed [("maxDepth".toList, .int 3),
      ("timeout".toList, .object [("read".toList, .double (.nan false))]),
      ("headers".toList, .object [("X".toList, .int 3)]), ("max_depth".toList, .null)] := by
  refine (closed_unless_slips _).1 fun e he name hname => ?_
  simp only [List.mem_cons, List.not_mem_nil, or_false] at he
  rcases he with rfl | rfl | rfl | rfl
  all_goals
    obtain rfl := Option.some.inj hname
    rintro (hmisread | ⟨n, hn, -, least, hleast, hlt⟩)
  · exact hmisread.2 3 rfl
  · obtain rfl := Value.int.inj hn
    obtain rfl := Option.some.inj hleast
    exact absurd hlt (by decide)
  · obtain ⟨-, x, hx, hnone⟩ := hmisread
    obtain rfl := List.mem_singleton.1 hx
    cases hnone
  · cases hn
  · have hw : (Value.object [("X".toList, .int 3)]).isWritable = false := hmisread
    exact absurd hw (by decide)
  · cases hn
  · cases hmisread.1
  · cases hn

/-- A scheme that is null is taken over, and a timeout that is null is refused as one of the wrong
type only. -/
theorem null_slips_through :
    (∃ o, ofEntries [("default_scheme".toList, .null)] = .ok o ∧ o.defaultScheme = none) ∧
      ¬ Closed [("default_scheme".toList, .null)] ∧
      ofEntries [("timeout".toList, .object [("read".toList, .null)])] = .error (.notNumber .null) ∧
      ¬ Closed [("timeout".toList, .object [("read".toList, .null)])] := by
  refine ⟨⟨_, rfl, rfl⟩, ?_, rfl, fun hclosed => OptionFaultKind.noConfusion hclosed.2⟩
  intro hclosed
  obtain ⟨s, hs, -⟩ := hclosed.2 .defaultScheme
  cases hs

end Options

end StyleSplice
