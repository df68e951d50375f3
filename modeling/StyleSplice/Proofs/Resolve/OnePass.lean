import StyleSplice.Resolve.Run

/-!
# Inlining in one pass

The plain way to inline imports: go over the nodes from left to right, look up the page of every
remote import at that moment, and go on inside it. There is no ledger of pages, nothing is asked for
in advance, and every block is entered. What a run of the resolver leaves is compared with this.
-/

namespace StyleSplice

/-- What there is to do about a node. -/
inductive Plan
  /-- The node is no import. -/
  | nothing
  | localTarget (target : Text)
  /-- The import leads back to a sheet around it. -/
  | cycle (url : Text)
  | fetch (d : Import) (url : Text)
deriving DecidableEq, Repr

/-- Decides what there is to do about a node. -/
def Plan.ofNode (s : Setup) (c : Context) (n : Node) : Except UrlFault Plan :=
  match Import.ofNode? n c.origin with
  | none => .ok .nothing
  | some d =>
    match Target.classify d.target c.origin s.options.schemeText with
    | .error f => .error f
    | .ok (.localPath _) => .ok (.localTarget d.target)
    | .ok (.remote url) => if c.visited url then .ok (.cycle url) else .ok (.fetch d url)

/-- Looks a page up: its nodes, or the fault that leaves the import in place. -/
def Setup.content (s : Setup) (url : Text) : Except Halt (Except Fault (List Node)) :=
  match s.network.answer url with
  | .failure f => .ok (.error f)
  | .crash message => .error (.crashed message)
  | .silence => .error .stalled
  | .body text =>
    match Sheet.parse text (some url) with
    | .error f => .ok (.error (.ofSheet text f))
    | .ok sheet =>
      if s.options.anchorReferences then
        match Node.anchorAll url sheet.children with
        | .error f => .error (.badUrl f)
        | .ok ns => .ok (.ok ns)
      else .ok (.ok sheet.children)

/-- The sheet that a page holds. -/
def Setup.page? (s : Setup) (url : Text) : Option Sheet :=
  match s.network.answer url with
  | .body text => (Sheet.parse text (some url)).toOption
  | _ => none

/-- What a pass over some nodes leaves, in the order of the pass. -/
structure Yield where
  /-- The nodes in the place of the old ones. -/
  nodes : List Node := []
  findings : List Diagnostic := []
  events : List Event := []
  /-- The addresses that were looked up. -/
  asked : List Text := []

namespace Yield

/-- One yield after the other. -/
def append (y z : Yield) : Yield :=
  ⟨y.nodes ++ z.nodes, y.findings ++ z.findings, y.events ++ z.events, y.asked ++ z.asked⟩

/-- The yield of an import that stays in place, for a reason. -/
def skipped (nodes : List Node) (c : Context) (target : Text) (reason : SkipReason)
    (fault : Option Fault := none) : Yield :=
  { nodes
    findings := (fault.map fun f => Diagnostic.ofFault f (some target) c.depth).toList
    events := [.skipped target c.depth reason.text.toList] }

end Yield

namespace OnePass

/-- What is said of a target in content that the pass does not enter. -/
def remark (s : Setup) (c : Context) : Target → Yield
  | .localPath _ => {}
  | .remote url =>
    if s.options.recursive then
      .skipped [] c url .depthExceeded (some (.depth url (s.options.maxDepth.map Int.ofNat)))
    else .skipped [] c url .notRecursive

/-- What is said of the imports in content that the pass does not enter. -/
def remarks (s : Setup) (c : Context) : List (Import × Node) → Except UrlFault Yield
  | [] => .ok {}
  | (d, _) :: rest =>
    match Target.classify d.target c.origin s.options.schemeText with
    | .error f => .error f
    | .ok target => (remarks s c rest).map (remark s c target).append

/-- The nodes of a page that an import leads to: `enter` goes over them if the context allows it,
and otherwise their imports are remarked on. -/
def visit (s : Setup) (enter : Context → List Node → Except Halt Yield) (c : Context) (url : Text)
    (children : List Node) : Except Halt Yield :=
  let inner := c.descend url
  if c.canDescend then enter inner children
  else
    match remarks s inner (Import.findAll children inner.origin) with
    | .error f => .error (.badUrl f)
    | .ok y => .ok { nodes := children, findings := y.findings, events := y.events }

/-- The page of an import in its place. -/
def replace (s : Setup) (enter : Context → List Node → Except Halt Yield) (c : Context) (n : Node)
    (d : Import) (url : Text) : Except Halt Yield :=
  match s.content url with
  | .error h => .error h
  | .ok (.error f) => .ok { Yield.skipped [n] c url .failed (some f) with asked := [url] }
  | .ok (.ok children) =>
    (visit s enter c url children).map fun y =>
      { nodes := Run.replacement d n y.nodes
        findings := y.findings
        events := y.events ++ [.resolved url c.depth d.media]
        asked := url :: y.asked }

mutual

/-- One node. -/
def node (s : Setup) (enter : Context → List Node → Except Halt Yield) (c : Context) :
    Node → Except Halt Yield
  | .block before h children after =>
    (nodes s enter c children).map fun y => { y with nodes := [.block before h y.nodes after] }
  | n =>
    match Plan.ofNode s c n with
    | .error f => .error (.badUrl f)
    | .ok .nothing => .ok { nodes := [n] }
    | .ok (.localTarget target) => .ok (.skipped [n] c target .localTarget)
    | .ok (.cycle url) => .ok (.skipped [n] c url .cycle (some (.cycle url c.stack)))
    | .ok (.fetch d url) => replace s enter c n d url

/-- A list of nodes, from left to right. -/
def nodes (s : Setup) (enter : Context → List Node → Except Halt Yield) (c : Context) :
    List Node → Except Halt Yield
  | [] => .ok {}
  | n :: ns =>
    match node s enter c n with
    | .error h => .error h
    | .ok y => (nodes s enter c ns).map y.append

end

/-- Goes over the nodes of a sheet. At most as many sheets may be nested as the fuel says. -/
def inline (s : Setup) : Nat → Context → List Node → Except Halt Yield
  | 0, _, _ => .error .tooDeep
  | fuel + 1, c, ns => nodes s (inline s fuel) c ns

end OnePass

end StyleSplice
