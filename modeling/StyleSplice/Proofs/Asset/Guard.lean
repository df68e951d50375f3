import Mathlib.Data.List.Forall2
import StyleSplice.Proofs.Asset.Finding
import StyleSplice.Proofs.Sheet.Matched

/-!
# Values that are not looked through

Only a value that holds one of two words in lower case is looked through for references. The finders
compare their words with case ignored, and that finds an `image-set(` with a dotted capital I, a
dotless small i or a long s, which lower case leaves as they are. But for a value with such a word,
and with neither of the words in ASCII, looking first changes nothing.
-/

namespace StyleSplice

variable {origin value : Text}

/-- A value that is looked through spells one of the words in ASCII. -/
theorem mayRefer_iff : mayRefer value = true ↔
    Text.Spells "url(".toList value ∨ Text.Spells "image-set(".toList value := by
  have hurl : "url(".toList <:+: value.lower ↔ Text.Spells "url(".toList value :=
    @isInfix_lowerFrom_iff "rl(".toList value 'u' rfl (by decide) (by decide) []
  have hset : "image-set(".toList <:+: value.lower ↔ Text.Spells "image-set(".toList value :=
    @isInfix_lowerFrom_iff "mage-set(".toList value 'i' rfl (by decide) (by decide) []
  rw [mayRefer, Bool.or_eq_true, hasPart_iff, hasPart_iff, hurl, hset]

/-- The value holds the word of an image set, but neither word of a reference in ASCII. -/
def HidesImageSet (value : Text) : Prop :=
  mayRefer value = false ∧ Text.Holds "image-set(".toList value

/-- Without the characters beyond ASCII that count as its letters, a word is spelled in ASCII. -/
theorem Text.Holds.spells {w s : Text} (h : Text.Holds w s)
    (hw : ∀ k ∈ w, ∀ c ∈ s, isLetter k c = true → c.toLower = k) : Text.Spells w s := by
  obtain ⟨front, word, rest, rfl, hword⟩ := h
  exact ⟨front, word, rest, rfl, hword.map_toLower fun k hk c hc => hw k hk c (by simp [hc])⟩

/-- The word of a hidden image set is written with a dotted capital I, a dotless small i or a long
s. -/
theorem HidesImageSet.exists_mem (h : HidesImageSet value) :
    ∃ c ∈ value, c = '\u0130' ∨ c = '\u0131' ∨ c = '\u017f' := by
  refine Classical.byContradiction fun hnone => ?_
  have hspells : Text.Spells "image-set(".toList value := by
    refine h.2.spells fun k hk c hc hletter => ?_
    rcases toLower_or_of_isLetter hletter with heq | ⟨-, heq⟩ | ⟨-, heq⟩ | ⟨rfl, -⟩
    · exact heq
    · exact absurd ⟨c, hc, heq.imp_right Or.inl⟩ hnone
    · exact absurd ⟨c, hc, .inr (.inr heq)⟩ hnone
    · exact absurd hk (by decide)
  have hmay := h.1
  rw [mayRefer_iff.2 (.inr hspells)] at hmay
  cases hmay

/-- The finder of calls takes no other character for a letter of its word. -/
theorem mayRefer_of_holds (h : Text.Holds "url(".toList value) : mayRefer value = true := by
  refine mayRefer_iff.2 (.inl (h.spells fun k hk c _ hletter => ?_))
  rcases toLower_or_of_isLetter hletter with heq | ⟨rfl, -⟩ | ⟨rfl, -⟩ | ⟨rfl, -⟩
  · exact heq
  all_goals exact absurd hk (by decide)

namespace AssetRef

theorem holds_iff {w s : Text} (hw : w ≠ []) :
    Text.Holds w s ↔ ¬ Nowhere (afterWord? w) s [] := by
  constructor
  · rintro ⟨front, word, rest, rfl, hword⟩ h
    have hne : word ++ rest ≠ [] := by
      rintro heq
      obtain ⟨rfl, rfl⟩ := List.append_eq_nil_iff.1 heq
      exact hw (List.length_eq_zero_iff.1 hword.length_eq.symm)
    have hnone := nowhere_iff.1 h front (word ++ rest) rfl hne
    rw [List.append_nil, afterWord?_of_isWord hword] at hnone
    cases hnone
  · refine fun h => Classical.byContradiction fun hnone => h (nowhere_iff.2 fun u t hs _ => ?_)
    refine Option.eq_none_iff_forall_not_mem.2 fun r hr => hnone ?_
    rw [List.append_nil] at hr
    obtain ⟨word, rfl, hword⟩ := exists_isWord_of_afterWord? hr
    exact ⟨u, word, r, hs, hword⟩

theorem nowhere_imageSet? {s : Text} (h : ¬ Text.Holds "image-set(".toList s) :
    Nowhere imageSet? s [] := by
  refine nowhere_iff.2 fun u t hs _ => Option.eq_none_iff_forall_not_mem.2 fun r hr => h ?_
  rw [List.append_nil] at hr
  obtain ⟨word, rfl, hword⟩ := exists_isSetWord hr
  obtain ⟨front, short, rfl, hshort⟩ := hword.exists_short
  exact ⟨u ++ front, short, r, by simp [hs], hshort⟩

/-- A value with neither word has no references. -/
theorem findAll_eq_nil (hurl : ¬ Text.Holds "url(".toList value)
    (hset : ¬ Text.Holds "image-set(".toList value) : findAll value = [] := by
  have hcalls : urlCalls 0 0 (value ++ []) = _ :=
    urlCalls_nowhere (Classical.byContradiction fun h => hurl ((holds_iff (by decide)).2 h))
  have hsets : imageSets 0 0 (value ++ []) = _ := imageSets_nowhere (nowhere_imageSet? hset)
  rw [List.append_nil] at hcalls hsets
  have hperm := findAll_perm value
  rw [hcalls, imageSetStrings_eq, hsets] at hperm
  exact hperm.eq_nil

end AssetRef

instance (value : Text) : Decidable (HidesImageSet value) :=
  decidable_of_iff (mayRefer value = false ∧
    ¬ AssetRef.Nowhere (afterWord? "image-set(".toList) value [])
    (and_congr_right fun _ => (AssetRef.holds_iff (by decide)).symm)

/-- Unless it hides an image set, a value that is not looked through would stay as it is. -/
theorem anchorReferences_of_not_mayRefer (hvalue : mayRefer value = false)
    (hhides : ¬ HidesImageSet value) : anchorReferences value origin = .ok value := by
  have hurl : ¬ Text.Holds "url(".toList value := fun h => by
    rw [mayRefer_of_holds h] at hvalue
    cases hvalue
  have hset : ¬ Text.Holds "image-set(".toList value := fun h => hhides ⟨hvalue, h⟩
  rw [anchorReferences, AssetRef.findAll_eq_nil hurl hset]
  rfl

theorem Node.declarations_of_leaf {n : Node} {ns : List Node} (hn : n.items = [.leaf n]) :
    Node.declarations (n :: ns) = n.declaration?.toList ++ Node.declarations ns := by
  rw [Node.declarations, Node.walkAll_cons, Node.walk_of_leaf hn, List.filterMap_append,
    List.filterMap_cons, List.filterMap_nil, ← Node.declarations]
  cases n.declaration? <;> rfl

theorem Node.declarations_block {before after : Text} {h : Head} {children ns : List Node} :
    Node.declarations (.block before h children after :: ns) =
      Node.declarations children ++ Node.declarations ns := by
  rw [Node.declarations, Node.walkAll_cons, Node.walk, List.cons_append,
    List.filterMap_cons_none rfl, List.filterMap_append, ← Node.declarations, ← Node.declarations]

/-- What an anchored declaration has become: its value, if it hides no image set, is what anchoring
makes of it, looked at before or not; and if it hides one, it stays. -/
def Declaration.Settled (origin : Text) (d d' : Declaration) : Prop :=
  d' = { d with value := d'.value } ∧
    (¬ HidesImageSet d.value → anchorReferences d.value origin = .ok d'.value) ∧
    (HidesImageSet d.value → d'.value = d.value)

theorem Declaration.settled_of_anchored {d d' : Declaration} (h : d.anchored origin = .ok d') :
    d.Settled origin d' := by
  unfold anchored at h
  split at h
  · rename_i hmay
    split at h
    · rename_i value' hvalue
      cases h
      refine ⟨rfl, fun _ => hvalue, fun hhides => ?_⟩
      rw [hhides.1] at hmay
      cases hmay
    · cases h
  · rename_i hmay
    cases h
    exact ⟨rfl, anchorReferences_of_not_mayRefer (Bool.eq_false_iff.2 hmay), fun _ => rfl⟩

/-- No declaration is an import, so that the second walk leaves the values alone. -/
theorem Node.declaration?_anchoredImport {n m : Node} (h : n.anchoredImport origin = .ok m) :
    m.declaration? = n.declaration? := by
  rcases eq_of_anchoredImport h with rfl | ⟨_, _, _, _, _, rfl, -, -, -, -, -, rfl⟩ <;> rfl

/-- The declarations of two trees of one shape correspond if those of the nodes without children do.
-/
theorem Node.Matched.declarations {R : Node → Node → Prop} {S : Declaration → Declaration → Prop}
    {ns ms : List Node} (h : Matched R ns ms)
    (hR : ∀ n m, R n m → Option.Rel S n.declaration? m.declaration?) :
    List.Forall₂ S (Node.declarations ns) (Node.declarations ms) := by
  induction h with
  | nil => exact .nil
  | @leaf n m ns ms hn hm related rest ih =>
    rw [declarations_of_leaf hn, declarations_of_leaf hm]
    refine List.rel_append ?_ ih
    have hnodes := hR n m related
    generalize n.declaration? = x, m.declaration? = y at hnodes
    cases hnodes with
    | none => exact .nil
    | some h => exact .cons h .nil
  | block inner rest ih ihs =>
    rw [declarations_block, declarations_block]
    exact List.rel_append ih ihs

/-- Each declaration of an anchored tree has the value that anchoring makes of the old one, whether
the old one was looked through or not, unless the old one hides an image set. Then it keeps its
value, in which one of three characters beyond ASCII stands. -/
theorem anchorAll_declarations (origin : Text) (ns : List Node) :
    (∀ ms, Node.anchorAll origin ns = .ok ms →
      List.Forall₂ (Declaration.Settled origin) (Node.declarations ns) (Node.declarations ms)) ∧
    (∀ value, mayRefer value = false → ¬ HidesImageSet value →
      anchorReferences value origin = .ok value) ∧
    ∀ value, HidesImageSet value → ∃ c ∈ value, c = '\u0130' ∨ c = '\u0131' ∨ c = '\u017f' := by
  refine ⟨fun ms h => ?_, fun value => anchorReferences_of_not_mayRefer,
    fun value => HidesImageSet.exists_mem⟩
  refine (Node.matched_of_anchorAll h).declarations ?_
  rintro n k ⟨m, hvalue, himport⟩
  rw [Node.declaration?_anchoredImport himport]
  unfold Node.anchoredValue at hvalue
  split at hvalue
  · split at hvalue
    · rename_i hd
      cases hvalue
      exact .some (Declaration.settled_of_anchored hd)
    · cases hvalue
  · rename_i hn
    cases hvalue
    cases n with
    | declaration d => exact absurd rfl (hn d)
    | _ => exact .none

/-- Words in capitals, a value without references, and a hidden image set in a block. -/
theorem anchorAll_declarations_capitals :
    let declared (property value : Text) : Declaration := ⟨property, value, [], [':'], [], true⟩
    let hidden := declared ['c'] "\u0131mage-set('f' 1x)".toList
    let plain := declared ['b'] "red".toList
    let first := declared ['d'] "URL( 'e' ) -WebKit-Image-Set(\"f\" 1x)".toList
    let first' := declared ['d'] "URL( 'http://h/e' ) -WebKit-Image-Set(\"http://h/f\" 1x)".toList
    let tree (d : Declaration) : List Node :=
      [.block [] (.rule ['a'] []) [.declaration d, .declaration plain, .declaration hidden] []]
    let origin := "http://h/s".toList
    Node.anchorAll origin (tree first) = .ok (tree first') ∧
      List.Forall₂ (Declaration.Settled origin) [first, plain, hidden] [first', plain, hidden] ∧
      anchorReferences plain.value origin = .ok plain.value ∧ HidesImageSet hidden.value ∧
      ∃ c ∈ hidden.value, c = '\u0130' ∨ c = '\u0131' ∨ c = '\u017f' := by
  intro declared hidden plain first first' tree origin
  have hfirst : first.anchored origin = .ok first' := rfl
  have hplain : plain.anchored origin = .ok plain := rfl
  have hhidden : hidden.anchored origin = .ok hidden := rfl
  have hanchor : Node.anchorAll origin (tree first) = .ok (tree first') := by
    simp only [Node.anchorAll, tree, Node.mapAllLeavesM, Node.mapLeavesM, Node.anchoredValue,
      hfirst, hplain, hhidden, Node.anchoredImport]
  have hhides : HidesImageSet hidden.value := by decide
  obtain ⟨htree, hvalue, hletters⟩ := anchorAll_declarations origin (tree first)
  exact ⟨hanchor, htree _ hanchor, hvalue plain.value rfl (by decide),
    hhides, hletters hidden.value hhides⟩

/-- A sheet in which the only reference is hidden stays as it is, although the finders know the
reference. -/
theorem hidden_image_set_stays :
    let value := "\u0131mage-set('a' 1x)".toList
    let origin := "http://h/s".toList
    ∃ t, Sheet.parse ("a\x7bb:".toList ++ value ++ "\x7d".toList) = .ok t ∧
      (Node.declarations t.children).map Declaration.value = [value] ∧
      Node.anchorAll origin t.children = .ok t.children ∧
      anchorReferences value origin = .ok "\u0131mage-set('http://h/a' 1x)".toList := by
  intro value origin
  let d : Declaration := ⟨['b'], value, [], [':'], [], false⟩
  have hparse : Sheet.parse ("a\x7bb:".toList ++ value ++ "\x7d".toList) =
      .ok ⟨[.block [] (.rule ['a'] []) [.declaration d] []], [], none⟩ :=
    parse_eq_ok_iff.2 ⟨rfl, .cons rfl (.cons rfl (.cons rfl (.cons rfl (.nil []))))⟩
  have hanchored : d.anchored origin = .ok d := rfl
  refine ⟨_, hparse, rfl, ?_, rfl⟩
  simp only [Node.anchorAll, Node.mapAllLeavesM, Node.mapLeavesM, Node.anchoredValue, hanchored,
    Node.anchoredImport]

end StyleSplice
