import StyleSplice.Shared.Resolve

/-!
# The workbench

A style sheet on the workbench is changed step by step. Its nodes are shared with earlier states of
the sheet and with the imports that have been picked out of it.
-/

namespace StyleSplice

/-- A style sheet that is being worked on. -/
structure Workbench where
  store : Store := {}
  /-- The children of the sheet. -/
  roots : List Key := []
  after : Text := []
  origin : Option Text := none
  /-- The imports that have been picked out, with their nodes, whether or not these are still in the
  sheet. -/
  picked : List (Import × Key) := []

/-- A place that can hold nodes: the sheet itself or a node of it. -/
inductive Site
  | sheet
  | node (k : Key)
deriving DecidableEq, Repr

/-- A step of the work. A path leads from the sheet to a node by positions among children. -/
inductive WorkStep
  /-- Replace the node at the path. -/
  | replace (path : List Nat) (ns : List Node)
  /-- Replace the node at `old` as a child of the node at the path. -/
  | replaceIn (path old : List Nat) (ns : List Node)
  /-- Pick out the imports below the node at the path. -/
  | pick (path : List Nat) (origin : Option Text)
  /-- Give a picked import another target. -/
  | retarget (index : Nat) (url : Text)
  /-- Resolve relative references against the origin. -/
  | anchor (origin : Text)
  /-- Put the whole sheet under the conditions of a picked import. -/
  | wrap (index : Nat)
  /-- Resolve the imports of the sheet. -/
  | resolve (setup : Setup)
  /-- Read the text of the sheet anew. -/
  | reparse

/-- Why a step failed. -/
inductive WorkFault
  | noNode
  | noContainer
  | noImport
  /-- The node is no child of the container. -/
  | notChild
  | url (f : UrlFault)
  | sheet (source : Text) (f : SheetFault)
  | halted (h : Halt)
deriving Repr

/-- The wording of a fault. -/
def WorkFault.message : WorkFault → Text
  | .noNode => "no node at path".toList
  | .noContainer => "not a container".toList
  | .noImport => "no such directive".toList
  | .notChild => "node is not a child of this container".toList
  | .url f => f.message.toList
  | .sheet source f => (Fault.ofSheet source f).message
  | .halted h => h.message

/-- What a step answers. -/
inductive WorkReply
  | done
  | picked (imports : List Import)
  | retargeted (d : Import)
  /-- The text of the sheet before the run as it is after it, and the findings of the run. -/
  | resolved (input : Text) (findings : List Diagnostic)
deriving Repr

namespace Workbench

/-- The text of the sheet. -/
def text (w : Workbench) : Text := Node.textOf (w.store.nodes w.roots) ++ w.after

/-- The sheet on the workbench. -/
def sheet (w : Workbench) : Sheet := ⟨w.store.nodes w.roots, w.after, w.origin⟩

/-- Puts a sheet on the workbench, in the place of the one that was there. -/
def lay (w : Workbench) (s : Sheet) : Workbench :=
  let (store, roots) := w.store.plantAll s.children
  { w with store, roots, after := s.after, origin := s.origin }

/-- A workbench with a sheet. -/
def ofSheet (s : Sheet) : Workbench := lay {} s

/-- The keys of the children at a site. -/
def childrenAt (w : Workbench) : Site → List Key
  | .sheet => w.roots
  | .node k => w.store.childrenOf k

/-- Whether a site may hold nodes. -/
def isContainer (w : Workbench) : Site → Bool
  | .sheet => true
  | .node k => ((w.store.cell? k).map Cell.isContainer).getD false

/-- The site at the end of a path that starts at `site`. -/
def siteAt? (w : Workbench) (site : Site) : List Nat → Option Site
  | [] => some site
  | i :: path =>
    match (w.childrenAt site)[i]? with
    | some k => siteAt? w (.node k) path
    | none => none

/-- The sheet with other children at a site. -/
def setChildren (w : Workbench) (site : Site) (ks : List Key) : Workbench :=
  match site with
  | .sheet => { w with roots := ks }
  | .node k =>
    match w.store.cell? k with
    | some c => { w with store := w.store.set k (.ofNode ks (c.node [])) }
    | none => w

/-- Puts new nodes in the place of the child at a position. -/
def replaceAt (w : Workbench) (site : Site) (i : Nat) (ns : List Node) : Workbench :=
  let (store, new) := w.store.plantAll ns
  let ks := w.childrenAt site
  { w with store }.setChildren site (ks.take i ++ new ++ ks.drop (i + 1))

/-- The container at a path. -/
def containerAt (w : Workbench) (path : List Nat) : Except WorkFault Site :=
  match w.siteAt? .sheet path with
  | none => .error .noNode
  | some site => if w.isContainer site then .ok site else .error .noContainer

/-- Replaces the node at a path. -/
def replace (w : Workbench) (path : List Nat) (ns : List Node) : Except WorkFault Workbench :=
  match path.getLast? with
  | none => .error .noNode
  | some i =>
    match w.containerAt path.dropLast with
    | .error f => .error f
    | .ok site =>
      if i < (w.childrenAt site).length then .ok (w.replaceAt site i ns) else .error .noNode

/-- Replaces the node at `old` as a child of the node at a path. -/
def replaceIn (w : Workbench) (path old : List Nat) (ns : List Node) :
    Except WorkFault Workbench :=
  match w.containerAt path with
  | .error f => .error f
  | .ok site =>
    match w.siteAt? .sheet old with
    | none => .error .noNode
    | some .sheet => .error .notChild
    | some (.node k) =>
      let ks := w.childrenAt site
      if ks.contains k then .ok (w.replaceAt site (ks.idxOf k) ns) else .error .notChild

/-- Picks out the imports below the node at a path. -/
def pick (w : Workbench) (path : List Nat) (origin : Option Text) : Except WorkFault Workbench :=
  match w.containerAt path with
  | .error f => .error f
  | .ok site => .ok { w with picked := w.store.imports (w.childrenAt site) origin }

/-- Gives a picked import another target. Its place in the parameters is the one that was read when
it was picked out or last retargeted. -/
def retarget (w : Workbench) (index : Nat) (url : Text) : Except WorkFault (Workbench × Import) :=
  match w.picked[index]? with
  | none => .error .noImport
  | some (d, k) =>
    let store := match w.store.cell? k with
      | some (.statement before h semicolon) =>
        w.store.set k (.statement before { h with params := d.retargeted h.params url } semicolon)
      | _ => w.store
    let d := d.withTarget url
    .ok ({ w with store, picked := w.picked.set index (d, k) }, d)

/-- Puts the sheet under the conditions of a picked import. -/
def wrap (w : Workbench) (index : Nat) : Except WorkFault Workbench :=
  match w.picked[index]? with
  | none => .error .noImport
  | some (d, _) =>
    let (store, roots) := w.store.wrapAll w.roots d.wrappers
    .ok { w with store, roots }

/-- Resolves the imports of the sheet. The result takes the place of the sheet, unless the run ends
without one. -/
def resolve (w : Workbench) (s : Setup) : Workbench × Except WorkFault WorkReply :=
  let start := Context.atStart s.options w.origin
  match (StoreRun.resolveKeys s (s.network.size + 2) start w.roots).run.run (w.store, {}) with
  | (.error h, store, _) => ({ w with store }, .error (.halted h))
  | (.ok roots, store, p) =>
    let before := { w with store }
    ({ before with roots }, .ok (.resolved before.text p.diagnostics))

/-- Reads the text of the sheet anew. -/
def reparse (w : Workbench) : Except WorkFault Workbench :=
  match Sheet.parse w.text w.origin with
  | .error f => .error (.sheet w.text f)
  | .ok s => .ok (w.lay s)

/-- The outcome of a step that answers nothing. -/
def settle (w : Workbench) : Except WorkFault Workbench → Workbench × Except WorkFault WorkReply
  | .ok w => (w, .ok .done)
  | .error f => (w, .error f)

/-- Takes a step. A step that fails changes no node of the sheet, but for the references that `anchor`
resolved before it failed. -/
def step (w : Workbench) : WorkStep → Workbench × Except WorkFault WorkReply
  | .replace path ns => w.settle (w.replace path ns)
  | .replaceIn path old ns => w.settle (w.replaceIn path old ns)
  | .pick path origin =>
    match w.pick path origin with
    | .ok w => (w, .ok (.picked (w.picked.map Prod.fst)))
    | .error f => (w, .error f)
  | .retarget index url =>
    match w.retarget index url with
    | .ok (w, d) => (w, .ok (.retargeted d))
    | .error f => (w, .error f)
  | .anchor origin =>
    match w.store.anchor origin w.roots with
    | (store, none) => ({ w with store }, .ok .done)
    | (store, some f) => ({ w with store }, .error (.url f))
  | .wrap index => w.settle (w.wrap index)
  | .resolve s => w.resolve s
  | .reparse => w.settle w.reparse

end Workbench

end StyleSplice
