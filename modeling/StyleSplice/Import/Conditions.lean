import StyleSplice.Import.Directive

/-!
# The conditions of an import

Nodes that take the place of an import go into a block for each of its conditions: the media list
outside, then the features, then the layer.
-/

namespace StyleSplice

/-- The head of a block for a condition. -/
def AtHead.ofCondition (name : String) (condition : Text) : AtHead :=
  ⟨name.toList, condition, if condition.isEmpty then [] else [' '], [' ']⟩

/-- A block around the nodes. The first of them goes on a line of its own if nothing stands in front
of it. -/
def Node.wrapIn (h : AtHead) (ns : List Node) : Node :=
  let ns := match ns with
    | n :: _ => if n.before.isEmpty then Node.leadWith ['\n'] ns else ns
    | [] => []
  .block [] (.atRule h) ns ['\n']

/-- A condition on features in brackets. -/
def Import.bracketed (condition : Text) : Text :=
  match condition with
  | '(' :: _ => condition
  | _ => '(' :: condition ++ [')']

/-- The heads of the blocks that the conditions of the import ask for, the innermost first. -/
def Import.wrappers (d : Import) : List AtHead :=
  let media := Text.trim isBlank d.media
  (d.layer.map (AtHead.ofCondition "layer")).toList ++
    (d.supports.map fun c => AtHead.ofCondition "supports" (bracketed c)).toList ++
    if media.isEmpty then [] else [AtHead.ofCondition "media" media]

/-- The nodes in the blocks that the conditions of the import ask for. -/
def Import.wrap (d : Import) (ns : List Node) : List Node :=
  d.wrappers.foldl (fun ns h => [Node.wrapIn h ns]) ns

theorem Import.exists_of_mem_wrappers {d : Import} {h : AtHead} (hh : h ∈ d.wrappers) :
    ∃ name ∈ ["layer", "supports", "media"], ∃ condition, h = .ofCondition name condition := by
  simp only [wrappers, List.mem_append, Option.mem_toList, Option.map_eq_some_iff] at hh
  rcases hh with (⟨c, -, rfl⟩ | ⟨c, -, rfl⟩) | hh
  · exact ⟨"layer", by simp, c, rfl⟩
  · exact ⟨"supports", by simp, _, rfl⟩
  · split at hh
    · cases hh
    · exact ⟨"media", by simp, _, List.mem_singleton.1 hh⟩

/-- What every block of a condition keeps, all of them keep. -/
theorem Import.wrap_keeps {P : List Node → Prop} (d : Import) {ns : List Node}
    (step : ∀ h ∈ d.wrappers, ∀ ns, P ns → P [Node.wrapIn h ns]) (hns : P ns) : P (d.wrap ns) := by
  unfold wrap
  generalize d.wrappers = hs at step
  induction hs generalizing ns with
  | nil => exact hns
  | cons h hs ih =>
    exact ih (step h List.mem_cons_self ns hns) fun k hk => step k (List.mem_cons_of_mem _ hk)

end StyleSplice
