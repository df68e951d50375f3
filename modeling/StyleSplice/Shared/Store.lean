import StyleSplice.Asset.Anchor
import StyleSplice.Import.Conditions

/-!
# Shared nodes

Trees that share nodes live in a store. A node has a key for as long as the store lasts, and whoever
holds the key sees every change of the node. A container knows its children by their keys.
-/

namespace StyleSplice

/-- The name of a node in a store. -/
abbrev Key := Nat

/-- A node in a store. -/
inductive Cell
  | comment (before body : Text)
  | declaration (d : Declaration)
  | statement (before : Text) (head : AtHead) (semicolon : Bool)
  | block (before : Text) (head : Head) (children : List Key) (after : Text)
deriving DecidableEq, Repr, Inhabited

namespace Cell

/-- The keys of the children. -/
def children : Cell → List Key
  | .block _ _ ks _ => ks
  | _ => []

/-- The node with the given children. -/
def node (ns : List Node) : Cell → Node
  | .comment before body => .comment before body
  | .declaration d => .declaration d
  | .statement before h semicolon => .statement before h semicolon
  | .block before h _ after => .block before h ns after

/-- The cell of a node whose children have the given keys. -/
def ofNode (ks : List Key) : Node → Cell
  | .comment before body => .comment before body
  | .declaration d => .declaration d
  | .statement before h semicolon => .statement before h semicolon
  | .block before h _ after => .block before h ks after

/-- Whether the node may hold others: an at-rule may, even one without a block. -/
def isContainer : Cell → Bool
  | .comment .. | .declaration _ => false
  | .statement .. | .block .. => true

@[simp] theorem node_ofNode (ks : List Key) (n : Node) : (ofNode ks n).node n.children = n := by
  cases n <;> rfl

@[simp] theorem ofNode_node (c : Cell) (ns : List Node) : ofNode c.children (c.node ns) = c := by
  cases c <;> rfl

end Cell

/-- Nodes by their keys, which count from zero. -/
structure Store where
  cells : Array Cell := #[]

namespace Store

/-- The node of a key. -/
def cell? (s : Store) (k : Key) : Option Cell := s.cells[k]?

/-- The keys of the children of a node. -/
def childrenOf (s : Store) (k : Key) : List Key := ((s.cell? k).map Cell.children).getD []

/-- The store with a new node, and its key. -/
def add (s : Store) (c : Cell) : Store × Key := (⟨s.cells.push c⟩, s.cells.size)

/-- The store with a node changed. -/
def set (s : Store) (k : Key) (c : Cell) : Store := ⟨s.cells.setIfInBounds k c⟩

@[simp] theorem cell?_add_of_lt {s : Store} {c : Cell} {k : Key} (h : k < s.cells.size) :
    (s.add c).1.cell? k = s.cell? k := by
  simp [cell?, add, Array.getElem?_push, Nat.ne_of_lt h]

mutual

/-- Puts a node with everything below it into the store, as new nodes. -/
def plant (s : Store) : Node → Store × Key
  | .block before h ns after =>
    let (s, ks) := plantAll s ns
    s.add (.block before h ks after)
  | n => s.add (.ofNode [] n)

/-- Puts nodes into the store. -/
def plantAll (s : Store) : List Node → Store × List Key
  | [] => (s, [])
  | n :: ns =>
    let (s, k) := plant s n
    let (s, ks) := plantAll s ns
    (s, k :: ks)

end

/-- The nodes of keys, with at most `depth` levels of nodes. -/
def nodesWithin (s : Store) : Nat → List Key → List Node
  | 0, _ => []
  | depth + 1, ks =>
    ks.filterMap fun k => (s.cell? k).map fun c => c.node (nodesWithin s depth c.children)

/-- The nodes of keys. No path of nodes is longer than the store, since none leads back. -/
def nodes (s : Store) (ks : List Key) : List Node := s.nodesWithin s.cells.size ks

/-- Keys, each followed by those of the nodes below it, with at most `depth` levels. -/
def walkWithin (s : Store) : Nat → List Key → List Key
  | 0, _ => []
  | depth + 1, ks => ks.flatMap fun k => k :: walkWithin s depth (s.childrenOf k)

/-- Keys, each followed by those of the nodes below it, in the order of the text. -/
def walk (s : Store) (ks : List Key) : List Key := s.walkWithin s.cells.size ks

/-- Changes nodes by `f`, their children aside, up to the first fault. What was changed before the
fault stays changed. -/
def update {ε : Type} (f : Node → Except ε Node) (s : Store) : List Key → Store × Option ε
  | [] => (s, none)
  | k :: ks =>
    match s.cell? k with
    | none => update f s ks
    | some c =>
      match f (c.node []) with
      | .error e => (s, some e)
      | .ok n => update f (s.set k (.ofNode c.children n)) ks

/-- Resolves the relative references below the keys against the origin: first those in values, then
the targets of imports. -/
def anchor (s : Store) (origin : Text) (ks : List Key) : Store × Option UrlFault :=
  match s.update (Node.anchoredValue origin) (s.walk ks) with
  | (s, some f) => (s, some f)
  | (s, none) => s.update (Node.anchoredImport origin) (s.walk ks)

/-- The imports below the keys, with the keys of their nodes. -/
def imports (s : Store) (ks : List Key) (origin : Option Text) : List (Import × Key) :=
  (s.walk ks).filterMap fun k =>
    (s.cell? k).bind fun c => (Import.ofNode? (c.node []) origin).map fun d => (d, k)

/-- Puts a text in front of a node. -/
def leadWith (s : Store) (before : Text) (k : Key) : Store :=
  match s.cell? k with
  | some c => s.set k (.ofNode c.children ((c.node []).withBefore before))
  | none => s

/-- A new block around the nodes. The first of them goes on a line of its own if nothing stands in
front of it, wherever else it is seen. -/
def wrapIn (s : Store) (h : AtHead) (ks : List Key) : Store × Key :=
  let s := match ks with
    | [] => s
    | k :: _ =>
      match s.cell? k with
      | some c => if (c.node []).before.isEmpty then s.leadWith ['\n'] k else s
      | none => s
  s.add (.block [] (.atRule h) ks ['\n'])

/-- The nodes in new blocks, the innermost first. -/
def wrapAll (s : Store) (ks : List Key) : List AtHead → Store × List Key
  | [] => (s, ks)
  | h :: rest =>
    let (s, k) := s.wrapIn h ks
    wrapAll s [k] rest

end Store

end StyleSplice
