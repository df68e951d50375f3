import StyleSplice.Proofs.Data.Names
import StyleSplice.Proofs.Options.Independence

/-!
# Which entry counts

A value that is set under the name of an option takes the place that the name has in the list, and
an option is what its last entry says. So the value counts unless another spelling of the option
stands behind that place; then nothing changes. All other options stay as they are.
-/

namespace StyleSplice

section LastEntry

variable {κ α : Type} {p : κ → Bool} {entries : List (κ × α)}

theorem lastOf_of_none (h : ∀ e ∈ entries, p e.1 = false) (v : α) : lastOf p v entries = v := by
  induction entries with
  | nil => rfl
  | cons e rest ih =>
    rw [List.forall_mem_cons] at h
    rw [lastOf, if_neg (by simp [h.1]), ih h.2]

/-- Where there is an entry for the key, what counted before does not matter. -/
theorem lastOf_of_exists (h : ∃ e ∈ entries, p e.1 = true) (v w : α) :
    lastOf p v entries = lastOf p w entries := by
  induction entries generalizing v w with
  | nil => simp at h
  | cons e rest ih =>
    rw [lastOf, lastOf]
    by_cases hp : p e.1 = true
    · rw [if_pos hp, if_pos hp]
    · rw [if_neg hp, if_neg hp]
      refine ih ?_ v w
      obtain ⟨x, hx, hpx⟩ := h
      rcases List.mem_cons.1 hx with rfl | hx
      · exact absurd hpx hp
      · exact ⟨x, hx, hpx⟩

/-- Entries for other keys may be left out. -/
theorem lastOf_filter {q : κ × α → Bool} (h : ∀ e, p e.1 = true → q e = true) (v : α) :
    lastOf p v (entries.filter q) = lastOf p v entries := by
  induction entries generalizing v with
  | nil => rfl
  | cons e rest ih =>
    rw [List.filter_cons, lastOf]
    by_cases hp : p e.1 = true
    · rw [if_pos (h e hp), lastOf, if_pos hp, ih]
    · rw [if_neg hp]
      split
      · rw [lastOf, if_neg hp, ih]
      · exact ih v

/-- The only entry with a key counts. -/
theorem lastOf_of_unique {e : κ × α} (he : e ∈ entries) (hp : p e.1 = true)
    (honly : ∀ x ∈ entries, p x.1 = true → x = e) (v : α) : lastOf p v entries = e.2 := by
  rw [lastOf_of_exists ⟨e, he, hp⟩ v e.2]
  rcases lastOf_cases p e.2 entries with hlast | ⟨x, hx, hpx, hlast⟩
  · exact hlast
  · rw [hlast, honly x hx hpx]

end LastEntry

namespace Options

variable {name : OptionName} {k : Text} {v w : Value} {entries : List (Text × Value)}

/-- The name of an option is one of its spellings. -/
theorem isSpelling_text (name other : OptionName) :
    isSpelling name other.text.toList = decide (name = other) := by
  cases name <;> cases other <;> decide

/-- Headers have a single spelling. -/
theorem isSpelling_headers : isSpelling .headers k = true ↔ k = "headers".toList := by
  refine ⟨fun h => ?_, ?_⟩
  · obtain ⟨x, hx, hname⟩ := Option.map_eq_some_iff.1 (of_decide_eq_true h)
    have hmem := List.mem_of_find?_eq_some hx
    have hkey : x.1.toList = k := by simpa using List.find?_some hx
    rw [← hkey]
    have hall : ∀ x ∈ OptionName.spellings, x.2 = .headers → x.1 = "headers" := by decide
    rw [hall x hmem hname]
  · rintro rfl
    decide

end Options

/-- What is set under the name of the option prevails: no spelling of the option comes after the
name in the list. -/
def OptionName.Prevails (name : OptionName) (entries : List (Text × Value)) : Prop :=
  entries.Pairwise fun e later => e.1 = name.text.toList → Options.isSpelling name later.1 = false

instance (name : OptionName) (entries : List (Text × Value)) : Decidable (name.Prevails entries) :=
  inferInstanceAs (Decidable (List.Pairwise _ _))

namespace Options

variable {name : OptionName} {k : Text} {v w : Value} {entries : List (Text × Value)}

theorem prevails_cons_own {rest : List (Text × Value)} :
    name.Prevails ((name.text.toList, w) :: rest) ↔ ∀ e ∈ rest, isSpelling name e.1 = false := by
  rw [OptionName.Prevails, List.pairwise_cons]
  refine ⟨fun h e he => h.1 e he rfl, fun h => ⟨fun e he _ => h e he, ?_⟩⟩
  exact List.pairwise_iff_forall_sublist.2 fun hsub _ => h _ (hsub.subset (by simp))

theorem prevails_cons_other {e : Text × Value} {rest : List (Text × Value)}
    (h : e.1 ≠ name.text.toList) : name.Prevails (e :: rest) ↔ name.Prevails rest := by
  rw [OptionName.Prevails, List.pairwise_cons]
  exact and_iff_right fun _ _ hsame => absurd hsame h

/-- A value that is set under the name of an option counts if the name prevails. If not, the option
stays as it is. -/
theorem valueOf_put_own (name : OptionName) (v : Value) (entries : List (Text × Value)) :
    valueOf name (put name.text.toList v entries) =
      if name.Prevails entries then v else valueOf name entries := by
  have hown : isSpelling name name.text.toList = true := by simp [isSpelling_text]
  unfold valueOf
  -- What counts changes from entry to entry, so the induction is for any value to start with.
  generalize name.unset = start
  induction entries generalizing start with
  | nil =>
    rw [if_pos (show name.Prevails [] from List.Pairwise.nil)]
    change lastOf (isSpelling name) start [(name.text.toList, v)] = v
    rw [lastOf, if_pos hown, lastOf]
  | cons e rest ih =>
    obtain ⟨key, w⟩ := e
    rw [put, putBy]
    by_cases hkey : key = name.text.toList
    · subst hkey
      rw [if_pos (by simp), lastOf, lastOf, if_pos hown, if_pos hown]
      simp only [prevails_cons_own]
      split
      · rename_i hnone
        exact lastOf_of_none hnone v
      · rename_i hsome
        exact lastOf_of_exists (by simpa using hsome) v w
    · rw [if_neg (by simpa using hkey), lastOf, lastOf]
      simp only [prevails_cons_other (e := (key, w)) hkey]
      exact ih _

theorem valueOf_put_other (h : isSpelling name k = false) :
    valueOf name (put k v entries) = valueOf name entries := by
  unfold valueOf
  generalize name.unset = start
  induction entries generalizing start with
  | nil =>
    rw [put, putBy]
    exact lastOf_of_none (by simp [h]) start
  | cons e rest ih =>
    obtain ⟨key, w⟩ := e
    rw [put, putBy]
    by_cases hkey : key = k
    · subst hkey
      rw [if_pos (by simp), lastOf, lastOf, if_neg (by simp [h]), if_neg (by simp [h])]
    · rw [if_neg (by simpa using hkey), lastOf, lastOf]
      exact ih _

theorem prevails_put_other (h : isSpelling name k = false) :
    name.Prevails (put k v entries) ↔ name.Prevails entries := by
  have hkeys : ∀ entries : List (Text × Value), name.Prevails entries ↔
      (entries.map Prod.fst).Pairwise fun key later =>
        key = name.text.toList → isSpelling name later = false :=
    fun _ => (List.pairwise_map (R := fun key later : Text =>
      key = name.text.toList → isSpelling name later = false)).symm
  rw [hkeys, hkeys, map_fst_put]
  split
  · exact Iff.rfl
  · rw [List.pairwise_append]
    simp [h]

/-- Entries of other options may be left out. -/
theorem prevails_filter {q : Text × Value → Bool}
    (h : ∀ e, isSpelling name e.1 = true → q e = true) :
    name.Prevails (entries.filter q) ↔ name.Prevails entries := by
  rw [OptionName.Prevails, List.pairwise_filter]
  refine ⟨fun hpair => hpair.imp fun hrel hsame => ?_, fun hpair => hpair.imp fun hrel _ _ => hrel⟩
  rename_i e later
  cases hlater : isSpelling name later.1 with
  | false => rfl
  | true =>
    have hown : isSpelling name e.1 = true := by simp [hsame, isSpelling_text]
    exact hlater.symm.trans (hrel (h e hown) (h later hlater) hsame)

/-- Settings under the names of different options, set one after another: each counts if its name
prevailed before. -/
theorem valueOf_foldl_put {names : List OptionName} (hnames : names.Nodup)
    (value? : OptionName → Option Value) (name : OptionName) (entries : List (Text × Value)) :
    valueOf name ((names.filterMap fun n => (value? n).map fun v => (n.text.toList, v)).foldl
        (fun c x => put x.1 x.2 c) entries) =
      if name ∈ names ∧ name.Prevails entries then (value? name).getD (valueOf name entries)
      else valueOf name entries := by
  induction names generalizing entries with
  | nil => simp
  | cons n names ih =>
    rw [List.nodup_cons] at hnames
    rw [List.filterMap_cons]
    cases hn : value? n with
    | none =>
      rw [Option.map_none, ih hnames.2]
      by_cases hname : name = n
      · subst hname
        simp [hn, hnames.1]
      · simp [hname]
    | some v =>
      rw [Option.map_some, List.foldl_cons, ih hnames.2]
      by_cases hname : name = n
      · subst hname
        simp [hn, hnames.1, valueOf_put_own]
      · -- The setting of another option changes neither the value nor whether the name prevails.
        have hother : isSpelling name n.text.toList = false := by simp [isSpelling_text, hname]
        rw [valueOf_put_other hother]
        simp only [prevails_put_other hother, List.mem_cons, hname, false_or]

end Options

end StyleSplice
