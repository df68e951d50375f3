import StyleSplice.Proofs.Resolve.Reports

/-!
# No recursion and depth zero

A run that does not follow the imports of fetched pages and one that may go no deeper than zero take
the same steps. The first is content with what it leaves, the second complains about it: that is all
the difference there is.
-/

namespace StyleSplice

/-- What is said with the limit zero, beside what is said without recursion: where the second leaves
an import of a fetched page because it is not recursive, the first leaves it because of the limit,
and has a finding for it in that place. -/
inductive Capped : List Event → List Diagnostic → List Event → List Diagnostic → Prop
  | nil : Capped [] [] [] []
  /-- An event with its finding. -/
  | found {e : Event} {x : Diagnostic} {es es' : List Event} {xs xs' : List Diagnostic}
    (reported : e.isReported = true) (rest : Capped es xs es' xs') :
    Capped (e :: es) (x :: xs) (e :: es') (x :: xs')
  /-- An event without a finding. -/
  | told {e : Event} {es es' : List Event} {xs xs' : List Diagnostic}
    (silent : e.isReported = false) (other : e.reason? ≠ some .notRecursive)
    (rest : Capped es xs es' xs') : Capped (e :: es) xs (e :: es') xs'
  | limit {url : Text} {depth : Int} {es es' : List Event} {xs xs' : List Diagnostic}
    (rest : Capped es xs es' xs') :
    Capped (.skipped url depth (SkipReason.text .notRecursive).toList :: es) xs
      (.skipped url depth (SkipReason.text .depthExceeded).toList :: es')
      (Diagnostic.ofFault (.depth url (some 0)) (some url) depth :: xs')

namespace Capped

variable {es es' fs fs' : List Event} {xs xs' zs zs' : List Diagnostic}

theorem append (h : Capped es xs es' xs') (h' : Capped fs zs fs' zs') :
    Capped (es ++ fs) (xs ++ zs) (es' ++ fs') (xs' ++ zs') := by
  induction h with
  | nil => exact h'
  | found reported _ ih => exact .found reported ih
  | told silent other _ ih => exact .told silent other ih
  | limit _ ih => exact .limit ih

/-- Events that do not belong to the walk are the same in both. -/
theorem of_not_isStep (h : ∀ e ∈ es, e.isStep = false) : Capped es [] es [] := by
  induction es with
  | nil => exact .nil
  | cons e es ih =>
    have he := h e (by simp)
    refine .told (Event.isReported_of_not_isStep he) ?_ (ih fun f hf => h f (by simp [hf]))
    cases e with
    | skipped => cases he
    | _ => simp [Event.reason?]

/-- As many events of the walk have happened in both. -/
theorem length_steps (h : Capped es xs es' xs') :
    (es'.filter Event.isStep).length = (es.filter Event.isStep).length := by
  induction h with
  | nil => rfl
  | found _ _ ih => simp only [List.filter_cons]; split <;> simp [ih]
  | told _ _ _ ih => simp only [List.filter_cons]; split <;> simp [ih]
  | limit _ ih => exact congrArg (· + 1) ih

/-- The same is told of replacements. -/
theorem filter_resolved (h : Capped es xs es' xs') :
    es'.filter (fun e => e.kind == .resolved) = es.filter fun e => e.kind == .resolved := by
  induction h with
  | nil => rfl
  | found _ _ ih => simp only [List.filter_cons, ih]
  | told _ _ _ ih => simp only [List.filter_cons, ih]
  | limit _ ih => simpa [Event.kind] using ih

end Capped

namespace Run

variable {s : Setup} {c : Context} {y : Yield}

/-- What both runs say besides their remarks is the same. -/
theorem Told.capped (h : Told s c y) : Capped y.events y.findings y.events y.findings := by
  cases h with
  | @early n plan plan_eq idle =>
    cases plan with
    | nothing => exact .nil
    | localTarget target => exact .told (Event.isReported_skipped ..) (by simp) .nil
    | cycle url => exact .found (Event.isReported_skipped ..) .nil
    | fetch d url => cases idle
  | failed content => exact .found (Event.isReported_skipped ..) .nil
  | resolved url media => exact .told rfl (by simp [Event.reason?]) .nil

/-- The remark on an import that is left is where the runs differ. -/
theorem capped_remark (limit : Option Nat) (url : Text) (target : Target) :
    let y := OnePass.remark (s.withDepth false limit) (c.descend url) target
    let y' := OnePass.remark (s.withDepth true (some 0)) (c.descend url) target
    Capped y.events y.findings y'.events y'.findings := by
  cases target with
  | localPath path => exact .nil
  | remote url => exact .limit .nil

/-- What a run without recursion leaves beside what the run with the limit zero leaves. -/
structure Beside (s : Setup) (p p' : Progress) : Prop where
  honest : p.ledger.Honest s.network
  ledger : p'.ledger = p.ledger
  capped : Capped p.trace p.diagnostics p'.trace p'.diagnostics

theorem Beside.noting {p p' : Progress} {y' : Yield} (h : Beside s p p')
    (hy : Capped y.events y.findings y'.events y'.findings) :
    Beside s (p.noting y) (p'.noting y') :=
  ⟨h.honest, h.ledger, h.capped.append hy⟩

/-- Neither run walks over a page that it has fetched. -/
theorem lockstep_capped (s : Setup) (limit : Option Nat) :
    Lockstep (s.withDepth false limit) true (some 0) (Beside s)
      fun _ c _ => c.options.recursive = false where
  honest h := h.honest
  ledger h := h.ledger
  aborted {p p'} h := by
    have hsteps : p'.steps.length = p.steps.length := h.capped.length_steps
    unfold isAborted
    rw [hsteps]
  request {p p' l events} h hl hsteps :=
    ⟨hl, rfl, by simpa [Progress.asking] using h.capped.append (.of_not_isStep hsteps)⟩
  told h hy := h.noting hy.capped
  descends hat _ _ hc := by simp [Context.canDescend, hat] at hc
  stays hat _ _ hc h := by
    refine tracks_stays hc (by simp [Context.canDescend, Context.withDepth]) ?_ h
    exact fun target p p' h => h.noting (capped_remark limit _ target)

end Run

/-- A run without recursion and one with the limit zero end with the same result, have asked for the
same pages in the same order and told of the same replacements. What they say otherwise is the same,
up to the reason why imports of fetched pages stay, and a finding for each of these in its place. -/
theorem resolve_flat_eq_depth_zero (s : Setup) (limit : Option Nat) (sheet : Sheet) :
    let flat := sheet.resolve (s.withDepth false limit)
    let capped := sheet.resolve (s.withDepth true (some 0))
    capped.edits = flat.edits ∧
      capped.progress.ledger.requested = flat.progress.ledger.requested ∧
      (capped.progress.trace.filter fun e => e.kind == .resolved) =
        (flat.progress.trace.filter fun e => e.kind == .resolved) ∧
      Capped flat.progress.trace flat.progress.diagnostics capped.progress.trace
        capped.progress.diagnostics := by
  intro flat capped
  have hl := Run.lockstep_capped s limit
  obtain ⟨hedits, hbeside⟩ := sheet.tracks_resolve hl rfl ⟨Ledger.honest_empty _, rfl, .nil⟩
  exact ⟨hedits, congrArg Ledger.requested hbeside.ledger, hbeside.capped.filter_resolved,
    hbeside.capped⟩

end StyleSplice
