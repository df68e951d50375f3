import StyleSplice.Sheet.Walk

/-!
# Edits of a tree

A run leaves most nodes of a sheet alone. What it does is a list of edits, one for each node of a
container, so that it stays known which nodes of the result are nodes of the input.
-/

namespace StyleSplice

/-- What happens to a node. -/
inductive Edit
  | keep
  /-- The node stays, and its children are edited. -/
  | within (edits : List Edit)
  /-- Other nodes take the place of the node. -/
  | splice (ns : List Node)
deriving Inhabited

mutual

/-- The nodes that an edit leaves in the place of a node. -/
def Edit.apply (n : Node) : Edit → List Node
  | .keep => [n]
  | .within edits =>
    match n with
    | .block before h children after => [.block before h (Edit.applyAll children edits) after]
    | n => [n]
  | .splice ns => ns

/-- The nodes that a list of edits leaves in the place of as many nodes. -/
def Edit.applyAll (ns : List Node) : List Edit → List Node
  | [] => ns
  | e :: es =>
    match ns with
    | [] => []
    | n :: ns => e.apply n ++ Edit.applyAll ns es

end

end StyleSplice
