import StyleSplice.Sheet.Node
import StyleSplice.Text.Case

/-!
# Walks over a tree

The nodes of a tree in the order of their text, and the selections from them.
-/

namespace StyleSplice

mutual

/-- A node followed by every node below it, in the order of the text. -/
def Node.walk : Node → List Node
  | n@(.block _ _ ns _) => n :: Node.walkAll ns
  | n => [n]

/-- The nodes of a list, each followed by those below it. -/
def Node.walkAll : List Node → List Node
  | [] => []
  | n :: ns => n.walk ++ Node.walkAll ns

end

@[simp] theorem Node.walkAll_nil : Node.walkAll [] = [] := by simp [Node.walkAll]

@[simp] theorem Node.walkAll_cons (n : Node) (ns : List Node) :
    Node.walkAll (n :: ns) = n.walk ++ Node.walkAll ns := by simp [Node.walkAll]

@[simp] theorem Node.walkAll_append (ms ns : List Node) :
    Node.walkAll (ms ++ ns) = Node.walkAll ms ++ Node.walkAll ns := by
  induction ms with
  | nil => simp
  | cons m ms ih => simp [ih]

/-- What is walked over is walked over below one of the nodes. -/
theorem Node.mem_walkAll {m : Node} {ns : List Node} :
    m ∈ Node.walkAll ns ↔ ∃ n ∈ ns, m ∈ n.walk := by
  induction ns with
  | nil => simp
  | cons n ns ih => simp [ih]

theorem Node.mem_walk_self (n : Node) : n ∈ n.walk := by
  cases n <;> simp [Node.walk]

theorem Node.mem_walkAll_of_mem {n : Node} {ns : List Node} (h : n ∈ ns) :
    n ∈ Node.walkAll ns := Node.mem_walkAll.2 ⟨n, h, n.mem_walk_self⟩

/-- Whether the node is an at-rule whose name in lower case is `name`. -/
def Node.isAtRuleNamed (name : Text) (n : Node) : Bool :=
  match n.atHead? with
  | some h => h.name.lower == name
  | none => false

/-- The at-rules of a list of nodes at any depth, all or those of one name. -/
def Node.atRules (ns : List Node) (name : Option Text) : List Node :=
  (Node.walkAll ns).filter fun n =>
    match name with
    | none => n.atHead?.isSome
    | some w => n.isAtRuleNamed w

/-- The declaration in a node. -/
def Node.declaration? : Node → Option Declaration
  | .declaration d => some d
  | _ => none

/-- The declarations of a list of nodes at any depth. -/
def Node.declarations (ns : List Node) : List Declaration :=
  (Node.walkAll ns).filterMap Node.declaration?

/-- Whether the value ends in `!important`, spaces and case ignored. -/
def Declaration.important (d : Declaration) : Bool :=
  "!important".toList.isSuffixOf (Text.lower (d.value.without (· == ' ')))

end StyleSplice
