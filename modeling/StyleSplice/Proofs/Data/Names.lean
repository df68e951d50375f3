import StyleSplice.Data.Reader

/-!
# Names in configurations

Setting the value of a name keeps every other name with its value and its place, so the names of an
object stay distinct. An object that was read therefore has each of its names once, and so has every
object within it.
-/

namespace StyleSplice

variable {α β : Type}

/-- Nothing is lost and nothing else is added when a name is set. -/
theorem mem_put {k : Text} {v : α} {fields : List (Text × α)} {x : Text × α}
    (h : x ∈ put k v fields) : x = (k, v) ∨ x ∈ fields := by
  induction fields with
  | nil => exact .inl (List.mem_singleton.1 h)
  | cons e rest ih =>
    obtain ⟨k', w⟩ := e
    rw [put, putBy] at h
    split at h
    · rename_i hsame
      obtain rfl : k' = k := by simpa using hsame
      exact (List.mem_cons.1 h).imp_right (List.mem_cons_of_mem _)
    · rcases List.mem_cons.1 h with rfl | hrest
      · exact .inr List.mem_cons_self
      · exact (ih hrest).imp_right (List.mem_cons_of_mem _)

/-- Names are set one after another: what stands there in the end was set or stood there before. -/
theorem mem_foldl_put {settings fields : List (Text × α)} {x : Text × α}
    (h : x ∈ settings.foldl (fun c y => put y.1 y.2 c) fields) : x ∈ settings ∨ x ∈ fields := by
  induction settings generalizing fields with
  | nil => exact .inr h
  | cons y settings ih =>
    rcases ih h with hset | hput
    · exact .inl (List.mem_cons_of_mem _ hset)
    · exact (mem_put hput).imp_left fun hxy => List.mem_cons.2 (.inl hxy)

/-- The names stay in their places; a new one goes to the end. -/
theorem map_fst_put (k : Text) (v : α) (fields : List (Text × α)) :
    (put k v fields).map Prod.fst =
      if k ∈ fields.map Prod.fst then fields.map Prod.fst else fields.map Prod.fst ++ [k] := by
  induction fields with
  | nil => rfl
  | cons e rest ih =>
    obtain ⟨k', w⟩ := e
    rw [put, putBy]
    by_cases hsame : k' = k
    · rw [if_pos (by simpa using hsame), if_pos (by simp [hsame])]
      rfl
    · have hmem : k ∈ ((k', w) :: rest).map Prod.fst ↔ k ∈ rest.map Prod.fst := by
        rw [List.map_cons, List.mem_cons]
        exact or_iff_right (Ne.symm hsame)
      rw [if_neg (by simpa using hsame), List.map_cons]
      change k' :: (put k v rest).map Prod.fst = _
      rw [ih]
      simp only [hmem]
      split <;> rfl

theorem nodup_put {k : Text} {v : α} {fields : List (Text × α)}
    (h : (fields.map Prod.fst).Nodup) : ((put k v fields).map Prod.fst).Nodup := by
  rw [map_fst_put]
  split
  · exact h
  · rename_i hnew
    refine List.nodup_append.2 ⟨h, by simp, fun a ha b hb hab => hnew ?_⟩
    rwa [← List.mem_singleton.1 hb, ← hab]

/-- Setting a name goes together with a change of all values. -/
theorem map_put (φ : α → β) (k : Text) (v : α) (fields : List (Text × α)) :
    (put k v fields).map (fun x => (x.1, φ x.2)) =
      put k (φ v) (fields.map fun x => (x.1, φ x.2)) := by
  induction fields with
  | nil => rfl
  | cons e rest ih =>
    rw [put, putBy, List.map_cons, put, putBy]
    split
    · rfl
    · exact congrArg _ ih

theorem put_of_new {k : Text} {fields : List (Text × α)} (h : ∀ x ∈ fields, x.1 ≠ k) (v : α) :
    put k v fields = fields ++ [(k, v)] := by
  induction fields with
  | nil => rfl
  | cons x rest ih =>
    rw [List.forall_mem_cons] at h
    rw [put, putBy, if_neg (by simpa using h.1)]
    exact congrArg _ (ih h.2)

/-- Distinct names can be set one after another to give the list that they stand in. -/
theorem foldl_put_of_nodup {fields done : List (Text × α)}
    (h : ((done ++ fields).map Prod.fst).Nodup) :
    fields.foldl (fun hs x => put x.1 x.2 hs) done = done ++ fields := by
  induction fields generalizing done with
  | nil => simp
  | cons x rest ih =>
    have hnew : ∀ e ∈ done, e.1 ≠ x.1 := by
      intro e he hsame
      rw [List.map_append, List.nodup_append] at h
      exact h.2.2 _ (List.mem_map_of_mem he) _ (List.mem_map_of_mem List.mem_cons_self) hsame
    rw [List.foldl_cons, put_of_new hnew, ih (by simpa using h), List.append_assoc]
    rfl

/-- The value of a name is that of its only entry. -/
theorem field?_eq_some_iff {k : Text} {v : α} {fields : List (Text × α)}
    (h : (fields.map Prod.fst).Nodup) : field? k fields = some v ↔ (k, v) ∈ fields := by
  induction fields with
  | nil => simp [field?]
  | cons e rest ih =>
    obtain ⟨k', w⟩ := e
    rw [List.map_cons, List.nodup_cons] at h
    have ih := ih h.2
    rw [field?] at ih ⊢
    by_cases hsame : k' = k
    · have hrest : (k, v) ∉ rest := fun hmem =>
        h.1 (List.mem_map.2 ⟨_, hmem, hsame.symm⟩)
      simp [hsame, hrest, eq_comm]
    · simp [hsame, ih, Ne.symm hsame]

namespace Value

/-- Every object within the value has each of its names once. -/
inductive Distinct : Value → Prop
  | simple {v : Value} (hlist : ∀ items, v ≠ .list items) (hobject : ∀ fields, v ≠ .object fields) :
    Distinct v
  | list {items : List Value} (hitems : ∀ v ∈ items, Distinct v) : Distinct (.list items)
  | object {fields : List (Text × Value)} (hnames : (fields.map Prod.fst).Nodup)
    (hfields : ∀ x ∈ fields, Distinct x.2) : Distinct (.object fields)

namespace Distinct

theorem empty : (Value.object []).Distinct := .object List.nodup_nil (by simp)

theorem nodup {fields : List (Text × Value)} (h : (Value.object fields).Distinct) :
    (fields.map Prod.fst).Nodup := by
  cases h with
  | simple _ hobject => exact absurd rfl (hobject fields)
  | object hnames _ => exact hnames

theorem of_mem {fields : List (Text × Value)} (h : (Value.object fields).Distinct)
    {x : Text × Value} (hx : x ∈ fields) : x.2.Distinct := by
  cases h with
  | simple _ hobject => exact absurd rfl (hobject fields)
  | object _ hfields => exact hfields x hx

/-- The fields read so far stay distinct when another one is read. -/
theorem put {fields : List (Text × Value)} (h : (Value.object fields).Distinct) {v : Value}
    (hv : v.Distinct) (k : Text) : (Value.object (put k v fields)).Distinct := by
  refine .object (nodup_put h.nodup) fun x hx => ?_
  rcases mem_put hx with rfl | hx
  · exact hv
  · exact h.of_mem hx

theorem list_reverse {items : List Value} (h : ∀ v ∈ items, v.Distinct) :
    (Value.list items.reverse).Distinct :=
  .list fun v hv => h v (List.mem_reverse.1 hv)

end Distinct

variable {s rest : Text} {v : Value}

theorem distinct_of_readNumber (h : readNumber s = .ok (v, rest)) : v.Distinct := by
  unfold readNumber at h
  split at h
  extract_lets whole at h
  split at h
  · cases h
  · split at h
    split at h
    split at h
    · split at h
      · cases h
      · cases h
        exact .simple nofun nofun
    · cases h
      exact .simple nofun nofun

theorem distinct_of_readSimple (h : readSimple s = .ok (v, rest)) : v.Distinct := by
  unfold readSimple at h
  split at h
  · rename_i w found hfound
    cases h
    have hword := List.mem_of_find?_eq_some hfound
    simp only [words, List.mem_cons, List.not_mem_nil, or_false, Prod.mk.injEq] at hword
    rcases hword with ⟨-, rfl⟩ | ⟨-, rfl⟩ | ⟨-, rfl⟩ | ⟨-, rfl⟩ | ⟨-, rfl⟩ | ⟨-, rfl⟩
    all_goals exact .simple nofun nofun
  · exact distinct_of_readNumber h

/-- With this fuel, whatever is read is distinct: a value, and the rest of a list or of an object
whose parts so far are distinct. -/
structure ReadDistinct (fuel : Nat) : Prop where
  value : ∀ {s v rest}, readValue fuel s = .ok (v, rest) → v.Distinct
  items : ∀ {done s v rest}, (∀ w ∈ done, w.Distinct) → readItems fuel done s = .ok (v, rest) →
    v.Distinct
  fields : ∀ {done s v rest}, (Value.object done).Distinct →
    readFields fuel done s = .ok (v, rest) → v.Distinct

namespace ReadDistinct

variable {fuel : Nat}

theorem zero : ReadDistinct 0 where
  value h := by cases h
  items _ h := by cases h
  fields _ h := by cases h

theorem value_succ (hfuel : ReadDistinct fuel) (h : readValue (fuel + 1) s = .ok (v, rest)) :
    v.Distinct := by
  rw [readValue.eq_def] at h
  dsimp only at h
  split at h
  · split at h
    · cases h
      exact .simple nofun nofun
    · cases h
  · split at h
    · cases h
      exact .empty
    · exact hfuel.fields .empty h
  · split at h
    · cases h
      exact .list (by simp)
    · exact hfuel.items (by simp) h
  · exact distinct_of_readSimple h

theorem items_succ (hfuel : ReadDistinct fuel) {done : List Value}
    (hdone : ∀ w ∈ done, w.Distinct) (h : readItems (fuel + 1) done s = .ok (v, rest)) :
    v.Distinct := by
  rw [readItems] at h
  split at h
  · cases h
  · rename_i w rest' hw
    have hdone' : ∀ u ∈ w :: done, u.Distinct := List.forall_mem_cons.2 ⟨hfuel.value hw, hdone⟩
    split at h
    · cases h
      exact .list_reverse hdone'
    · exact hfuel.items hdone' h
    · cases h

theorem fields_succ (hfuel : ReadDistinct fuel) {done : List (Text × Value)}
    (hdone : (Value.object done).Distinct) (h : readFields (fuel + 1) done s = .ok (v, rest)) :
    v.Distinct := by
  rw [readFields.eq_def] at h
  dsimp only at h
  split at h
  · split at h
    · cases h
    · split at h
      · split at h
        · cases h
        · rename_i w rest' hw
          have hw := hfuel.value hw
          split at h
          · cases h
            exact hdone.put hw _
          · exact hfuel.fields (hdone.put hw _) h
          · cases h
      · cases h
  · cases h

end ReadDistinct

theorem readDistinct (fuel : Nat) : ReadDistinct fuel := by
  induction fuel with
  | zero => exact .zero
  | succ fuel ih => exact ⟨ih.value_succ, ih.items_succ, ih.fields_succ⟩

theorem distinct_of_read {source : Text} (h : read source = .ok v) : v.Distinct := by
  unfold read at h
  split at h
  · cases h
  · split at h
    · cases h
    · rename_i hv
      split at h
      · cases h
        exact (readDistinct _).value hv
      · cases h

end Value

end StyleSplice
