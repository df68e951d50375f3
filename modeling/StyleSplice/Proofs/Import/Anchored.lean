import StyleSplice.Proofs.Import.Retarget
import StyleSplice.Proofs.Sheet.Matched
import StyleSplice.Proofs.Url.Web

/-!
# What anchored content says

Anchoring puts the resolved target of an import in the place of the target. If the page comes from
the web and the place has room for the address, a run takes the same from the import as before.
-/

namespace StyleSplice

/-- What a run takes from an import: what its target refers to, and its media. -/
def Import.reading (scheme : Text) (origin : Option Text) (d : Import) :
    Except UrlFault Target × Text := (Target.classify d.target origin scheme, d.media)

/-- Two nodes that are the same to a run. -/
structure Node.Alike (scheme : Text) (origin : Option Text) (n m : Node) : Prop where
  named : m.isAtRuleNamed "import".toList = n.isAtRuleNamed "import".toList
  reading : (Import.ofNode? m origin).map (Import.reading scheme origin) =
    (Import.ofNode? n origin).map (Import.reading scheme origin)

/-- An import in a page at `origin` keeps its meaning when its target is resolved: the target stays
as it is, or the page comes from the web and there is room for the address. -/
def Import.Survives (origin : Text) (d : Import) : Prop :=
  ∀ url, resolveReference d.target origin = .ok url →
    d.target = [] ∨ url = d.target ∨ OnWeb origin ∧ d.CanHold url

instance (origin : Text) (d : Import) : Decidable (d.Survives origin) :=
  match h : resolveReference d.target origin with
  | .ok url =>
    decidable_of_iff (d.target = [] ∨ url = d.target ∨ OnWeb origin ∧ d.CanHold url)
      (by simp [Import.Survives, h])
  | .error _ => .isTrue (by simp [Import.Survives, h])

namespace Node

variable {scheme origin : Text} {n m : Node}

theorem alike_refl (origin : Option Text) (n : Node) : Alike scheme origin n n := ⟨rfl, rfl⟩

/-- An anchored import is read again with the address that its target refers to. -/
theorem alike_anchoredImport
    (hs : ∀ d, Import.ofNode? n (some origin) = some d → d.Survives origin)
    (h : n.anchoredImport origin = .ok m) : Alike scheme (some origin) n m := by
  rcases eq_of_anchoredImport h with
    rfl | ⟨before, hd, semicolon, d, url, rfl, hname, hdecode, hurl, hne, hchanged, rfl⟩
  · exact alike_refl _ _
  have ho : Import.ofNode? (.statement before hd semicolon) (some origin) = some d :=
    Import.ofNode?_eq_some_iff.2 ⟨_, _, _, rfl, hname, hdecode⟩
  obtain ⟨hweb, hroom⟩ : OnWeb origin ∧ d.CanHold url :=
    ((hs d ho url hurl).resolve_left hne).resolve_left hchanged
  -- The address starts with its scheme, so it is neither empty nor in quotes.
  have hclear : url ≠ [] ∧ Text.Clear isQuote url := by
    obtain ⟨rest, rfl | rfl⟩ := exists_of_resolveReference hweb hne hurl hchanged
    all_goals exact ⟨by simp, Text.clear_cons.2 (by decide)⟩
  have hread : Import.ofNode? (.statement before
      { hd with params := d.retargeted hd.params url } semicolon) (some origin) =
      some (d.withTarget url) :=
    Import.ofNode?_eq_some_iff.2
      ⟨_, _, _, rfl, hname, Import.decode?_retargeted hdecode hclear.1 hclear.2 hroom⟩
  refine ⟨rfl, ?_⟩
  rw [hread, ho]
  exact congrArg some (Prod.ext (Target.classify_resolved hweb hne hurl hchanged) rfl)

/-- Anchored content says the same as before if all of its imports keep their meaning. -/
theorem matched_alike_of_anchorAll {ns ms : List Node}
    (hs : ∀ d n, (d, n) ∈ Import.findAll ns (some origin) → d.Survives origin)
    (h : anchorAll origin ns = .ok ms) : Matched (Alike scheme (some origin)) ns ms := by
  refine (matched_of_anchorAll h).mono fun n hn k _ ⟨m, hm, hk⟩ => ?_
  -- Only declarations have values, and no declaration is an import.
  rcases eq_of_anchoredValue hm with rfl | ⟨d, value, rfl, rfl⟩
  · exact alike_anchoredImport (fun d hd => hs d m (Import.mem_findAll.2 ⟨hn, hd⟩)) hk
  · cases hk
    exact ⟨rfl, rfl⟩

end Node

end StyleSplice
