import StyleSplice.Proofs.Resolve.Deeds

/-!
# When a run returns

Faults of pages and of their texts stay where they are: the import is left in place, and its siblings
are resolved as if it were not there. References that the reader of addresses refuses are another
matter. They end the whole run, wherever in the reach of the run they stand, and nothing else does.
-/

namespace StyleSplice

/-- A network whose pages are bodies or failures, and whose size bounds the number of bodies. -/
structure Network.Tame (net : Network) : Prop where
  answers : ∀ url, (∃ text, net.answer url = .body text) ∨ ∃ f, net.answer url = .failure f
  bound : ∀ urls : List Text, urls.Nodup → (∀ u ∈ urls, ∃ text, net.answer u = .body text) →
    urls.length ≤ net.size

/-- A page that is a body or a failure of the transport. -/
def Page.isTame : Page → Bool
  | .crash _ => false
  | .silence => false
  | _ => true

theorem Page.answer_of_isTame {page : Page} (h : page.isTame) (headers : Headers) (url : Text) :
    (∃ text, page.answer headers url = .body text) ∨
      ∃ f, page.answer headers url = .failure f := by
  cases page with
  | crash message => cases h
  | silence => cases h
  | status code => exact .inr ⟨_, rfl⟩
  | network message => exact .inr ⟨_, rfl⟩
  | timedOut message => exact .inr ⟨_, rfl⟩
  | body text => exact .inl ⟨_, rfl⟩
  | byAgent word yes no => exact .inl ⟨_, rfl⟩
  | echo header => exact .inl ⟨_, rfl⟩

theorem Network.tame_ofPages {headers : Headers} {pages : List (Text × Page)}
    (h : ∀ x ∈ pages, x.2.isTame) : (Network.ofPages headers pages).Tame where
  answers url := by
    rcases answer_ofPages headers pages url with ⟨page, hmem, ha⟩ | ha
    · rw [ha]
      exact Page.answer_of_isTame (h _ hmem) headers url
    · exact .inr ⟨_, ha⟩
  bound := bounded_ofPages headers pages

theorem Stumbles.of_enters {s : Setup} {c c' : Context} {ns ns' : List Node} {f : UrlFault}
    (h : Enters s c ns c' ns') (hf : Stumbles s c' ns' f) : Stumbles s c ns f := by
  induction h with
  | refl => exact hf
  | inside leads content enters _ ih => exact .inside leads content enters (ih hf)

/-- In a tame network a run fails for what is refused within its reach only. -/
theorem Breaks.stumbles {s : Setup} (hs : s.network.Tame) {c : Context} {ns : List Node} {e : Halt}
    (h : Breaks s c ns e) : ∃ f, e = .badUrl f ∧ Stumbles s c ns f := by
  cases h with
  | stumble refused => exact ⟨_, rfl, refused⟩
  | @page c' ns' url e enters leads broken =>
    rcases Setup.content_error broken with ⟨f, rfl⟩ | ⟨m, -, ha⟩ | ⟨-, ha⟩
    · exact ⟨f, rfl, .of_enters enters (.anchor leads broken)⟩
    all_goals
      rcases hs.answers url with ⟨text, hb⟩ | ⟨f, hb⟩ <;> rw [ha] at hb <;> cases hb

/-- A run in a tame network that nobody aborts returns, or else something within its reach is
refused. -/
theorem Sheet.returns_or_stumbles {s : Setup} (hs : s.network.Tame) (ha : s.abortAfter = none)
    (sheet : Sheet) :
    (∃ edits, (sheet.resolve s).edits = .ok edits) ∨
      ∃ f, (sheet.resolve s).edits = .error (.badUrl f) ∧
        Stumbles s (.atStart s.options sheet.origin) sheet.children f := by
  cases he : (sheet.resolve s).edits with
  | ok edits => exact .inl ⟨edits, rfl⟩
  | error e =>
    obtain ⟨f, rfl, hf⟩ := ((Sheet.meets_resolve hs.bound sheet).2 e he ha).stumbles hs
    exact .inr ⟨f, rfl, hf⟩

/-- What a run that returns leaves is what the one pass leaves. -/
theorem Sheet.inline_of_resolve {s : Setup} {sheet : Sheet} {edits : List Edit}
    (h : (sheet.resolve s).edits = .ok edits) :
    ∃ y, OnePass.inline s (s.network.size + 2) (.atStart s.options sheet.origin) sheet.children =
      .ok y ∧ Edit.applyAll sheet.children edits = y.nodes := by
  obtain ⟨y, hy, hnodes, -⟩ :=
    Run.adds_edits (Nat.le_refl _) (Ledger.honest_empty _) (Sheet.ends_of_resolve h)
  exact ⟨y, hy, hnodes⟩

/-- If nothing in the reach of a sheet is refused, a run over a part of its nodes returns. -/
theorem Sheet.returns_on_part {s : Setup} (hs : s.network.Tame) (ha : s.abortAfter = none)
    {sheet : Sheet} (hno : ∀ f, ¬ Stumbles s (.atStart s.options sheet.origin) sheet.children f)
    {ns : List Node} (hsub : ns ⊆ sheet.children) :
    ∃ edits, (({ sheet with children := ns } : Sheet).resolve s).edits = .ok edits := by
  rcases Sheet.returns_or_stumbles hs ha { sheet with children := ns } with h | ⟨f, -, hf⟩
  · exact h
  · refine absurd (hf.mono fun m hm => ?_) (hno f)
    obtain ⟨n, hn, hmn⟩ := Node.mem_walkAll.1 hm
    exact Node.mem_walkAll.2 ⟨n, hsub hn, hmn⟩

/-- What a run leaves of some siblings is what runs over two parts of them leave. -/
theorem Sheet.applyAll_of_parts {s : Setup} {sheet : Sheet} {ms ns : List Node}
    {edits es fs : List Edit} (hsplit : sheet.children = ms ++ ns)
    (h : (sheet.resolve s).edits = .ok edits)
    (hm : (({ sheet with children := ms } : Sheet).resolve s).edits = .ok es)
    (hn : (({ sheet with children := ns } : Sheet).resolve s).edits = .ok fs) :
    Edit.applyAll sheet.children edits = Edit.applyAll ms es ++ Edit.applyAll ns fs := by
  obtain ⟨y, hy, hnodes⟩ := Sheet.inline_of_resolve h
  obtain ⟨y₁, hy₁, hnodes₁⟩ := Sheet.inline_of_resolve hm
  obtain ⟨y₂, hy₂, hnodes₂⟩ := Sheet.inline_of_resolve hn
  rw [hsplit] at hy
  cases hy.symm.trans (OnePass.nodes_append hy₁ hy₂)
  rw [hnodes, hnodes₁, hnodes₂]
  rfl

/-- The exact condition: without a crash, a silent page or an abort, a run returns unless a
reference within its reach is refused. When it returns, every part of a list of siblings is resolved
as if it stood alone; when it does not, the fault is that of a refused reference. -/
theorem resolve_returns_unless_refused (headers : Headers) {pages : List (Text × Page)}
    (hpages : ∀ x ∈ pages, x.2.isTame) (o : Options) (sheet : Sheet) :
    let s : Setup := { options := o, network := .ofPages headers pages }
    ((∀ f, ¬ Stumbles s (.atStart o sheet.origin) sheet.children f) →
      ∃ edits, (sheet.resolve s).edits = .ok edits ∧
        ∀ ms ns, sheet.children = ms ++ ns → ∃ es fs,
          (({ sheet with children := ms } : Sheet).resolve s).edits = .ok es ∧
          (({ sheet with children := ns } : Sheet).resolve s).edits = .ok fs ∧
          Edit.applyAll sheet.children edits = Edit.applyAll ms es ++ Edit.applyAll ns fs) ∧
    ((∃ f, Stumbles s (.atStart o sheet.origin) sheet.children f) →
      ∃ f, (sheet.resolve s).edits = .error (.badUrl f) ∧
        Stumbles s (.atStart o sheet.origin) sheet.children f) := by
  intro s
  have hs : s.network.Tame := Network.tame_ofPages hpages
  constructor
  · intro hno
    obtain ⟨edits, he⟩ := Sheet.returns_on_part hs rfl hno (List.Subset.refl sheet.children)
    refine ⟨edits, he, fun ms ns hsplit => ?_⟩
    obtain ⟨es, hes⟩ := Sheet.returns_on_part hs rfl hno (show ms ⊆ _ by simp [hsplit])
    obtain ⟨fs, hfs⟩ := Sheet.returns_on_part hs rfl hno (show ns ⊆ _ by simp [hsplit])
    exact ⟨es, fs, hes, hfs, Sheet.applyAll_of_parts hsplit he hes hfs⟩
  · rintro ⟨f, hf⟩
    rcases Sheet.returns_or_stumbles hs rfl sheet with ⟨edits, he⟩ | h
    · obtain ⟨y, hy, -⟩ := Sheet.inline_of_resolve he
      exact absurd hy (OnePass.inline_ne_ok hf _ y)
    · exact h

/-- A page that can be had but whose only import names no address ends the run. -/
theorem resolve_fails_on_refused_target :
    let s : Setup :=
      { options := {}
        network := .ofPages [] [("https://h/a.css".toList, .body "@import '//[';".toList)] }
    let sheet : Sheet :=
      ⟨[.statement [] ⟨"import".toList, "'https://h/a.css'".toList, [' '], []⟩ true], [], none⟩
    Sheet.parse "@import 'https://h/a.css';".toList = .ok sheet ∧
      (sheet.resolve s).edits = .error (.badUrl .brackets) := by
  intro s sheet
  have h : (sheet.resolve s).edits.map (fun _ => ()) = .error (.badUrl .brackets) := by
    decide +kernel
  exact ⟨parse_eq_ok_iff.2 ⟨rfl, .cons rfl (.cons rfl (.nil _))⟩, map_eq_error_iff.1 h⟩

/-- Of two siblings the first is missing and the second is replaced by its page. -/
theorem resolve_returns_past_missing_page :
    let pages : List (Text × Page) := [("https://h/b.css".toList, .body "b{}".toList)]
    let s : Setup := { options := {}, network := .ofPages [] pages }
    let sheet : Sheet :=
      ⟨[.statement [] ⟨"import".toList, "'https://h/a.css'".toList, [' '], []⟩ true,
        .statement [] ⟨"import".toList, "'https://h/b.css'".toList, [' '], []⟩ true], [], none⟩
    (∀ x ∈ pages, x.2.isTame) ∧ (∀ f, ¬ Stumbles s (.atStart {} none) sheet.children f) ∧
      ∃ edits, (sheet.resolve s).edits = .ok edits := by
  intro pages s sheet
  have hpages : ∀ x ∈ pages, x.2.isTame := by decide
  have h := resolve_returns_unless_refused [] hpages {} sheet
  have hok : (sheet.resolve s).edits.isOk := by decide +kernel
  have hno : ∀ f, ¬ Stumbles s (.atStart {} none) sheet.children f := by
    intro f hf
    obtain ⟨g, hg, -⟩ := h.2 ⟨f, hf⟩
    rw [hg] at hok
    cases hok
  obtain ⟨edits, he, -⟩ := h.1 hno
  exact ⟨hpages, hno, edits, he⟩

end StyleSplice
