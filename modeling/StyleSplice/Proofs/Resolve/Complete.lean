import StyleSplice.Proofs.Resolve.Conservation
import StyleSplice.Proofs.Resolve.Identity
import StyleSplice.Proofs.Resolve.Seams

/-!
# Nothing is left to resolve

A run that may go as deep as it likes and finds nothing to complain about has replaced every import
with a remote target, in the sheet and in all that came in. The imports that are left have local
targets where they came from, and these are local in any sheet without an address. So resolving the
result once more changes nothing, as long as it is read as it was left.
-/

namespace StyleSplice

/-- A target that is local anywhere is local in a sheet without an address. -/
theorem Target.classify_none {target scheme path : Text} {origin : Option Text}
    (h : classify target origin scheme = .ok (.localPath path)) :
    classify target none scheme = .ok (.localPath target) := by
  unfold classify at h
  split at h
  · exfalso
    split at h
    · split at h
      · obtain ⟨url, -, hurl⟩ := map_eq_ok_iff.1 h
        cases hurl
      · cases h
    · cases h
  · rename_i hremote
    rw [classify, if_neg hremote]
    exact ite_self _

/-- What the head imports, if it can be decoded, is local in a sheet without an address. -/
def AtHead.ImportsLocal (scheme : Text) (h : AtHead) : Prop :=
  ∀ d, Import.decode? h.params none = some d →
    Target.classify d.target none scheme = .ok (.localPath d.target)

/-- All imports among the nodes, at any depth, have such heads. -/
def Node.ImportsLocal (scheme : Text) (ns : List Node) : Prop :=
  ∀ h ∈ Import.headsIn ns, h.ImportsLocal scheme

namespace Import

variable {n : Node} {ns : List Node} {d : Import} {origin : Option Text}

theorem exists_decode?_of_ofNode? (h : ofNode? n origin = some d) :
    ∃ head, n.atHead? = some head ∧ decode? head.params origin = some d := by
  obtain ⟨before, head, semicolon, rfl, -, hd⟩ := ofNode?_eq_some_iff.1 h
  exact ⟨head, rfl, hd⟩

theorem mem_headsIn {h : AtHead} :
    h ∈ headsIn ns ↔ ∃ d n, (d, n) ∈ findAll ns none ∧ n.atHead? = some h := by
  simp [headsIn]

/-- White space and semicolons do not matter to which imports there are. -/
theorem headsIn_bareOf (ns : List Node) :
    headsIn (Node.bareOf ns) = (headsIn ns).map AtHead.bare := by
  have hlist : ∀ ms : List Node, (∀ m ∈ ms, headsIn [m.bare] = (headsIn [m]).map AtHead.bare) →
      headsIn (Node.bareOf ms) = (headsIn ms).map AtHead.bare := by
    intro ms hms
    induction ms with
    | nil => rw [Node.bareOf, headsIn_nil, List.map_nil]
    | cons m ms ih =>
      rw [Node.bareOf, headsIn_cons, headsIn_cons (n := m), hms m (by simp),
        ih fun k hk => hms k (by simp [hk]), List.map_append]
  refine hlist ns fun n hmem => ?_
  clear hmem
  induction n using Node.induction with
  | leaf n hn =>
    cases n with
    | block => simp at hn
    | statement before h semicolon =>
      rw [Node.bare, headsIn_leaf rfl, headsIn_leaf rfl]
      change ((ofNode? (.statement before h semicolon) none).bind fun _ => some h.bare).toList = _
      cases ofNode? (.statement before h semicolon) none <;> rfl
    | _ => rw [Node.bare, headsIn_leaf rfl, headsIn_leaf rfl]; rfl
  | block before h children after ih =>
    rw [Node.bare, headsIn_block, headsIn_block]
    exact hlist children ih

theorem headsIn_replacement_subset (d : Import) (n : Node) :
    headsIn (Run.replacement d n ns) ⊆ headsIn ns := by
  rw [Run.replacement, headsIn_leadWith, headsIn_wrap]
  exact headsIn_filter_subset _

end Import

namespace Node.ImportsLocal

variable {scheme : Text} {ms ns : List Node}

theorem append (hm : ImportsLocal scheme ms) (hn : ImportsLocal scheme ns) :
    ImportsLocal scheme (ms ++ ns) := by
  intro h hmem
  rw [Import.headsIn_append] at hmem
  exact (List.mem_append.1 hmem).elim (hm h) (hn h)

theorem of_ofNode?_eq_none {n : Node} {origin : Option Text} (hn : n.items = [.leaf n])
    (hd : Import.ofNode? n origin = none) : ImportsLocal scheme [n] := by
  rw [Import.ofNode?_eq_map, Option.map_eq_none_iff] at hd
  intro head hmem
  rw [Import.headsIn_leaf (Node.walk_of_leaf hn), hd] at hmem
  cases hmem

/-- An import with a target that is local where it stands. -/
theorem of_classify {n : Node} {origin : Option Text} {d : Import} {path : Text}
    (hd : Import.ofNode? n origin = some d)
    (ht : Target.classify d.target origin scheme = .ok (.localPath path)) :
    ImportsLocal scheme [n] := by
  obtain ⟨head, hh, -⟩ := Import.exists_decode?_of_ofNode? hd
  intro head' hmem d' hd'
  rw [Import.headsIn_of_import hd hh, List.mem_singleton] at hmem
  subst hmem
  -- The same parameters are decoded, once with and once without the address of the sheet.
  rw [Import.ofNode?_eq_map, Option.map_eq_some_iff] at hd
  obtain ⟨d₀, hd₀, rfl⟩ := hd
  obtain ⟨head₀, hh₀, hdecode⟩ := Import.exists_decode?_of_ofNode? hd₀
  obtain rfl : head₀ = head' := Option.some.inj (hh₀.symm.trans hh)
  obtain rfl : d₀ = d' := Option.some.inj (hdecode.symm.trans hd')
  exact Target.classify_none ht

/-- Only white space and semicolons may differ. -/
theorem of_bareOf (h : ImportsLocal scheme ns) (hsame : bareOf ms = bareOf ns) :
    ImportsLocal scheme ms := by
  intro head hmem
  have hbare : head.bare ∈ (Import.headsIn ns).map AtHead.bare := by
    rw [← Import.headsIn_bareOf, ← hsame, Import.headsIn_bareOf]
    exact List.mem_map_of_mem hmem
  obtain ⟨head', hmem', heq⟩ := List.mem_map.1 hbare
  have hparams : head'.params = head.params := by
    simpa [AtHead.bare] using congrArg AtHead.params heq
  intro d hd
  exact h head' hmem' d (by rwa [hparams])

end Node.ImportsLocal

/-- Whether all imports have local targets can be seen from their heads. -/
theorem allLocal_atStart_iff {s : Setup} {ns : List Node} :
    AllLocal s (.atStart s.options none) ns ↔ Node.ImportsLocal s.options.schemeText ns := by
  constructor
  · intro hall head hmem d hd
    obtain ⟨d', n, hfound, hh⟩ := Import.mem_headsIn.1 hmem
    obtain ⟨head', hh', hd'⟩ := Import.exists_decode?_of_ofNode? (Import.mem_findAll.1 hfound).2
    obtain rfl : head' = head := Option.some.inj (hh'.symm.trans hh)
    obtain rfl : d' = d := Option.some.inj (hd'.symm.trans hd)
    obtain ⟨path, hp⟩ := hall d' n hfound
    exact Target.classify_none hp
  · intro hall d n hfound
    obtain ⟨head, hh, hd⟩ := Import.exists_decode?_of_ofNode? (Import.mem_findAll.1 hfound).2
    exact ⟨d.target, hall head (Import.mem_headsIn.2 ⟨d, n, hfound, hh⟩) d hd⟩

namespace OnePass

variable {s : Setup} {enter : Context → List Node → Except Halt Yield} {c : Context} {y : Yield}
  {n : Node} {ns : List Node}

/-- A node that stays without a complaint is no import with a remote target. -/
theorem importsLocal_of_idle (hn : n.items = [.leaf n]) {plan : Plan}
    (hplan : Plan.ofNode s c n = .ok plan) (hidle : plan.order? = none)
    (hf : (plan.early c).findings = []) : Node.ImportsLocal s.options.schemeText [n] := by
  unfold Plan.ofNode at hplan
  cases hd : Import.ofNode? n c.origin with
  | none => exact .of_ofNode?_eq_none hn hd
  | some d =>
    rw [hd] at hplan
    dsimp only at hplan
    cases ht : Target.classify d.target c.origin s.options.schemeText with
    | error f =>
      rw [ht] at hplan
      cases hplan
    | ok target =>
      rw [ht] at hplan
      cases target with
      | remote url =>
        dsimp only at hplan
        split at hplan <;> cases hplan
        · cases hf
        · cases hidle
      | localPath path => exact .of_classify hd ht

theorem importsLocal_nodes (hn : ∀ n ∈ ns, ∀ y, node s enter c n = .ok y → y.findings = [] →
      Node.ImportsLocal s.options.schemeText y.nodes)
    (h : nodes s enter c ns = .ok y) (hf : y.findings = []) :
    Node.ImportsLocal s.options.schemeText y.nodes := by
  induction ns generalizing y with
  | nil =>
    rw [nodes] at h
    cases h
    exact fun head hmem => by cases hmem
  | cons n ns ih =>
    obtain ⟨y₁, y₂, h₁, h₂, rfl⟩ := nodes_eq_ok_cons h
    obtain ⟨hf₁, hf₂⟩ := List.append_eq_nil_iff.1 hf
    exact (hn n (by simp) y₁ h₁ hf₁).append (ih (fun m hm => hn m (by simp [hm])) h₂ hf₂)

/-- If going over the pages leaves imports with local targets only, unless it complains, so does
going over the nodes that lead there. -/
theorem importsLocal_node (hc : c.canDescend = true)
    (he : ∀ url children y, enter (c.descend url) children = .ok y → y.findings = [] →
      Node.ImportsLocal s.options.schemeText y.nodes)
    (h : node s enter c n = .ok y) (hf : y.findings = []) :
    Node.ImportsLocal s.options.schemeText y.nodes := by
  induction n using Node.induction generalizing y with
  | leaf n hn =>
    rw [node_of_leaf hn] at h
    cases hplan : Plan.ofNode s c n with
    | error f =>
      rw [hplan] at h
      cases h
    | ok plan =>
      rw [hplan] at h
      cases plan with
      | fetch d url =>
        change replace s enter c n d url = .ok y at h
        unfold replace at h
        split at h
        · cases h
        · cases h
          cases hf
        · obtain ⟨w, hw, rfl⟩ := map_eq_ok_iff.1 h
          rw [visit, if_pos hc] at hw
          exact fun head hmem => he url _ w hw hf head (Import.headsIn_replacement_subset d n hmem)
      | _ =>
        cases h
        exact importsLocal_of_idle hn hplan rfl hf
  | block before hd children after ih =>
    rw [node_block] at h
    obtain ⟨z, hz, rfl⟩ := map_eq_ok_iff.1 h
    intro head hmem
    rw [Import.headsIn_block] at hmem
    exact importsLocal_nodes (fun m hm y => ih m hm) hz hf head hmem

/-- A pass without a limit that complains about nothing leaves imports with local targets only. -/
theorem importsLocal_inline (hr : s.options.recursive = true) (hm : s.options.maxDepth = none)
    {fuel : Nat} (ho : c.options = s.options) (h : inline s fuel c ns = .ok y)
    (hf : y.findings = []) : Node.ImportsLocal s.options.schemeText y.nodes := by
  induction fuel generalizing c ns y with
  | zero => cases h
  | succ fuel ih =>
    have hc : c.canDescend = true := by rw [Context.canDescend, ho, hr, hm]; rfl
    exact importsLocal_nodes (fun n _ y => importsLocal_node hc fun url children y => ih ho) h hf

end OnePass

/-- A run that may go as deep as it likes and complains about nothing leaves imports with local
targets only. If its result is read as it was left, up to white space and semicolons, then resolving
it again, with whatever pages, asks for no page, complains about nothing and gives the same text. -/
theorem resolve_again_keeps_text {s : Setup} (hr : s.options.recursive = true)
    (hm : s.options.maxDepth = none) {sheet again : Sheet} {edits : List Edit}
    (h : (sheet.resolve s).edits = .ok edits) (hd : (sheet.resolve s).progress.diagnostics = [])
    (hp : Sheet.parse (sheet.edited edits).text = .ok again)
    (hb : again.bare = (sheet.edited edits).bare) :
    AllLocal s (.atStart s.options none) (sheet.edited edits).children ∧
      ∀ network,
        let rerun := again.resolve { options := s.options, network }
        rerun.progress.ledger.requested = [] ∧ rerun.progress.diagnostics = [] ∧
          ∃ edits', rerun.edits = .ok edits' ∧
            (again.edited edits').text = (sheet.edited edits).text := by
  obtain ⟨y, hy, hnodes, -, hadd⟩ :=
    Run.adds_edits (Nat.le_refl _) (Ledger.honest_empty _) (Sheet.ends_of_resolve h)
  have hfindings : y.findings = [] := List.subset_nil.1 (hd ▸ hadd.findings_subset)
  have hlocal : Node.ImportsLocal s.options.schemeText (sheet.edited edits).children := by
    rw [Sheet.edited, hnodes]
    exact OnePass.importsLocal_inline hr hm rfl hy hfindings
  refine ⟨allLocal_atStart_iff.2 hlocal, fun network => ?_⟩
  obtain ⟨horigin, hreads⟩ := parse_eq_ok_iff.1 hp
  have hagain := hlocal.of_bareOf (congrArg Sheet.children hb)
  have hall : AllLocal { options := s.options, network } (.atStart s.options again.origin)
      again.children := horigin ▸ allLocal_atStart_iff.2 hagain
  obtain ⟨hquiet, hsame, hreturns⟩ := Sheet.resolve_of_allLocal hall
  obtain ⟨edits', he⟩ := hreturns rfl
  refine ⟨hquiet.requested, hquiet.diagnostics, edits', he, ?_⟩
  rw [hsame edits' he, Sheet.text_of_reads hreads]

/-- A local import in a page with a condition, one that cannot be decoded in another page, and one in
the sheet itself. -/
theorem resolve_again_keeps_text_print :
    let pages : List (Text × Page) :=
      [("https://h/a.css".toList, .body "@import 'b.css' screen;@import 'file:x.css';c\x7b\x7d".toList),
        ("https://h/b.css".toList, .body "@charset 'x';@import u;".toList)]
    let s : Setup := { options := { recursive := true }, network := .ofPages [] pages }
    let sheet : Sheet :=
      ⟨[.statement [] ⟨"import".toList, "'https://h/a.css' print".toList, [' '], []⟩ true,
        .statement [] ⟨"import".toList, "'y.css'".toList, [' '], []⟩ true], [], none⟩
    ∃ edits again, (sheet.resolve s).edits = .ok edits ∧
      (sheet.resolve s).progress.diagnostics = [] ∧
      Sheet.parse (sheet.edited edits).text = .ok again ∧
      again.bare = (sheet.edited edits).bare ∧
      AllLocal s (.atStart s.options none) (sheet.edited edits).children ∧
      (again.resolve { options := s.options, network := .ofPages [] [] }).progress.ledger.requested =
        [] ∧
      ∃ edits', (again.resolve { options := s.options, network := .ofPages [] [] }).edits =
          .ok edits' ∧ (again.edited edits').text = (sheet.edited edits).text := by
  intro pages s sheet
  have hp : Sheet.parse "@import 'https://h/a.css' print;@import 'y.css';".toList = .ok sheet :=
    parse_eq_ok_iff.2 ⟨rfl, .cons rfl (.cons rfl (.cons rfl (.nil _)))⟩
  have hstay : (sheet.resolve s).edits.map (fun edits =>
      decide (Item.AllStay (sheet.edited edits).items)) = .ok true := by decide +kernel
  obtain ⟨edits, h, hstay⟩ := map_eq_ok_iff.1 hstay
  have hd : (sheet.resolve s).progress.diagnostics = [] := by decide +kernel
  obtain ⟨hshaped, hafter⟩ := Sheet.shaped_edited hp h
  obtain ⟨again, hagain, hb⟩ :=
    (Sheet.exists_parse_text_iff hshaped hafter).2 (of_decide_eq_true hstay)
  obtain ⟨hlocal, hrerun⟩ := resolve_again_keeps_text rfl rfl h hd hagain hb
  obtain ⟨hr, -, hreturns⟩ := hrerun (.ofPages [] [])
  exact ⟨edits, again, h, hd, hagain, hb, hlocal, hr, hreturns⟩

end StyleSplice
