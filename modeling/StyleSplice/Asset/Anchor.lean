import StyleSplice.Asset.Reference

/-!
# Anchoring references

The relative references of fetched content are replaced by addresses that do not depend on where
the content ends up: those in declaration values, and the targets of imports. Each keeps its quotes.
-/

namespace StyleSplice

/-- Replaces the reference in `value`, provided it is relative; what stands before it keeps its
place, so earlier references can still be replaced after it. -/
def AssetRef.anchorIn (origin value : Text) (a : AssetRef) : Except UrlFault Text :=
  if a.isAnchorable then
    match resolveReference a.url origin with
    | .ok url => .ok (value.take a.start ++ url ++ value.drop a.stop)
    | .error f => .error f
  else .ok value

/-- The value with its relative references resolved against the origin, from the last to the
first. -/
def anchorReferences (value origin : Text) : Except UrlFault Text :=
  (AssetRef.findAll value).reverse.foldlM (AssetRef.anchorIn origin) value

/-- Whether a value can hold a reference. -/
def mayRefer (value : Text) : Bool :=
  let s := value.lower
  Text.hasPart "url(".toList s || Text.hasPart "image-set(".toList s

/-- The declaration with the references of its value resolved. -/
def Declaration.anchored (origin : Text) (d : Declaration) : Except UrlFault Declaration :=
  if mayRefer d.value then
    match anchorReferences d.value origin with
    | .ok value => .ok { d with value }
    | .error f => .error f
  else .ok d

/-- The parameters of an import with its target resolved; none if they stay as they are. -/
def Import.anchored? (origin params : Text) (d : Import) : Except UrlFault (Option Text) :=
  match resolveReference d.target origin with
  | .error f => .error f
  | .ok url =>
    if d.target.isEmpty || url = d.target then .ok none else .ok (some (d.retargeted params url))

/-- The statement with the target of its import resolved; any other node as it is. -/
def Node.anchoredImport (origin : Text) (n : Node) : Except UrlFault Node :=
  match n, Import.ofNode? n (some origin) with
  | .statement before h semicolon, some d =>
    match d.anchored? origin h.params with
    | .error f => .error f
    | .ok none => .ok n
    | .ok (some params) => .ok (.statement before { h with params } semicolon)
  | _, _ => .ok n

/-- The node with the references of its value resolved if it is a declaration. -/
def Node.anchoredValue (origin : Text) (n : Node) : Except UrlFault Node :=
  match n with
  | .declaration d =>
    match d.anchored origin with
    | .ok d => .ok (.declaration d)
    | .error f => .error f
  | n => .ok n

/-- A declaration keeps all but its value, and any other node stays as it is. -/
theorem Node.eq_of_anchoredValue {origin : Text} {n m : Node}
    (h : n.anchoredValue origin = .ok m) :
    m = n ∨ ∃ d value, n = .declaration d ∧ m = .declaration { d with value } := by
  cases n with
  | declaration d =>
    unfold anchoredValue Declaration.anchored at h
    dsimp only at h
    split at h
    · rename_i d' hd
      cases h
      split at hd
      · split at hd
        · cases hd
          exact .inr ⟨d, _, rfl, rfl⟩
        · cases hd
      · cases hd
        exact .inl rfl
    · cases h
  | _ =>
    cases h
    exact .inl rfl

/-- An import whose target does not stay as it is gets other parameters, and any other node stays as
it is. -/
theorem Node.eq_of_anchoredImport {origin : Text} {n m : Node}
    (h : n.anchoredImport origin = .ok m) :
    m = n ∨ ∃ before hd semicolon d url, n = .statement before hd semicolon ∧
      hd.name.lower = "import".toList ∧ Import.decode? hd.params (some origin) = some d ∧
      resolveReference d.target origin = .ok url ∧ d.target ≠ [] ∧ url ≠ d.target ∧
      m = .statement before { hd with params := d.retargeted hd.params url } semicolon := by
  unfold anchoredImport at h
  split at h
  · rename_i before hd semicolon d ho
    obtain ⟨_, _, _, ⟨⟩, hname, hdecode⟩ := Import.ofNode?_eq_some_iff.1 ho
    split at h
    · cases h
    · cases h
      exact .inl rfl
    · rename_i params hparams
      cases h
      unfold Import.anchored? at hparams
      split at hparams
      · cases hparams
      · rename_i url hurl
        split at hparams
        · cases hparams
        · rename_i hkept
          cases hparams
          simp only [Bool.or_eq_true, List.isEmpty_iff, decide_eq_true_eq, not_or] at hkept
          exact .inr ⟨before, hd, semicolon, d, url, rfl, hname, hdecode, hurl, hkept.1, hkept.2,
            rfl⟩
  · cases h
    exact .inl rfl

mutual

/-- Changes the nodes without children below a node, in the order of the text. -/
def Node.mapLeavesM {ε : Type} (f : Node → Except ε Node) : Node → Except ε Node
  | .block before h ns after =>
    match Node.mapAllLeavesM f ns with
    | .ok ns => .ok (.block before h ns after)
    | .error e => .error e
  | n => f n

/-- Changes the nodes without children in a list of nodes. -/
def Node.mapAllLeavesM {ε : Type} (f : Node → Except ε Node) : List Node → Except ε (List Node)
  | [] => .ok []
  | n :: ns =>
    match n.mapLeavesM f with
    | .error e => .error e
    | .ok n =>
      match Node.mapAllLeavesM f ns with
      | .ok ns => .ok (n :: ns)
      | .error e => .error e

end

/-- The nodes with every relative reference resolved against the origin: first those in values, then
the targets of imports. -/
def Node.anchorAll (origin : Text) (ns : List Node) : Except UrlFault (List Node) :=
  match Node.mapAllLeavesM (Node.anchoredValue origin) ns with
  | .ok ns => Node.mapAllLeavesM (Node.anchoredImport origin) ns
  | .error f => .error f

end StyleSplice
