import StyleSplice.Asset.Anchor
import StyleSplice.Fetch.Ledger
import StyleSplice.Import.Conditions
import StyleSplice.Report.Diagnostic
import StyleSplice.Resolve.Context
import StyleSplice.Resolve.Edit

/-!
# Resolving the imports of a sheet

The walk goes over the children of a container twice. First it asks for the pages of all remote
imports among them; then, in the order of the text, each of these imports is replaced by the content
of its page, and blocks that hold imports are entered. Content that was fetched is walked over in
the same way, one context deeper. An import whose page cannot be had or read, or that leads back to
a sheet around it, stays where it is, and a diagnostic says so. A run that has been aborted ends in
front of the next list of nodes, or at the next page that it would have to wait for.
-/

namespace StyleSplice

/-- What a run is given besides the sheet. -/
structure Setup where
  options : Options
  network : Network
  /-- Abort the run once this many events of the walk have happened. -/
  abortAfter : Option Nat := none
  /-- The pages that are not there in time for a run that has been aborted: it ends at the first of
  them that it comes to wait for. A page that it has waited for before is none of them. -/
  late : Text → Bool := fun _ => false

/-- What has happened so far. -/
structure Progress where
  ledger : Ledger := {}
  /-- All events, in order. -/
  trace : List Event := []
  diagnostics : List Diagnostic := []

/-- The events of the walk, in order. -/
def Progress.steps (p : Progress) : List Event := p.trace.filter Event.isStep

/-- Why a run ends without a result. -/
inductive Halt
  | aborted
  | abortedWaiting
  /-- A request broke down. -/
  | crashed (message : Text)
  /-- A reference cannot be resolved. -/
  | badUrl (f : UrlFault)
  /-- The ledger is closed, or a page has not been asked for. -/
  | noRequest
  /-- A page stays silent in a run that nobody aborts. -/
  | stalled
  /-- More descents are nested than the network has sheets. -/
  | tooDeep
deriving DecidableEq, Repr

/-- The wording of the end of a run. -/
def Halt.message : Halt → Text
  | .aborted => "Import resolution aborted".toList
  | .abortedWaiting => "Import resolution aborted while fetching".toList
  | .crashed message => message
  | .badUrl f => f.message.toList
  | .noRequest => "cannot schedule new futures after shutdown".toList
  | .stalled => "still waiting".toList
  | .tooDeep => "too many nested imports".toList

/-- A computation of a run. -/
abbrev Run := ExceptT Halt (StateM Progress)

namespace Run

/-- Ends the run. -/
def halt {α : Type} (h : Halt) : Run α := throw h

/-- Lets a fault of a URL end the run. -/
def ofUrl {α : Type} : Except UrlFault α → Run α
  | .ok x => pure x
  | .error f => halt (.badUrl f)

/-- Tells of an event. -/
def tell (e : Event) : Run Unit := modify fun p => { p with trace := p.trace ++ [e] }

/-- Adds a diagnostic. -/
def warn (f : Fault) (url : Text) (c : Context) : Run Unit :=
  modify fun p =>
    { p with diagnostics := p.diagnostics ++ [Diagnostic.ofFault f (some url) c.depth] }

/-- Tells that an import stays in place. -/
def skip (target : Text) (c : Context) (reason : SkipReason) : Run Unit :=
  tell (.skipped target c.depth reason.text.toList)

/-- Whether the run has been aborted. -/
def isAborted (s : Setup) (p : Progress) : Bool :=
  match s.abortAfter with
  | none => false
  | some n => n ≤ p.steps.length

/-- Whether the run waits no longer for a page with the given answer: it has been aborted, and the page
is late or stays silent. -/
def stopsWaiting (s : Setup) (p : Progress) (url : Text) (a : Answer) : Bool :=
  isAborted s p && (s.late url || a == .silence)

/-- Ends the run if it has been aborted. -/
def checkAborted (s : Setup) : Run Unit := do
  if isAborted s (← get) then halt .aborted

/-- Asks for a page. -/
def submit (s : Setup) (url : Text) : Run Unit := do
  let p ← get
  match p.ledger.request s.network url with
  | none => halt .noRequest
  | some (ledger, events) => set { p with ledger, trace := p.trace ++ events }

/-- Waits for a page that has been asked for. A run that has been aborted ends unless the page is
there in time. -/
def await (s : Setup) (url : Text) : Run (Except Fault Text) := do
  let p ← get
  match p.ledger.answer? url with
  | none => halt .noRequest
  | some a =>
    if stopsWaiting s p url a then halt .abortedWaiting
    else
      match a with
      | .body text => pure (.ok text)
      | .failure f => pure (.error f)
      | .crash message => halt (.crashed message)
      | .silence => halt .stalled

/-- An import whose page is to be fetched, and the address of the page. -/
abbrev Order := Import × Text

/-- Decides whether a node is an import to resolve, and asks for its page if so. -/
def order (s : Setup) (c : Context) (n : Node) : Run (Option Order) :=
  match Import.ofNode? n c.origin with
  | none => pure none
  | some d => do
    match ← ofUrl (Target.classify d.target c.origin s.options.schemeText) with
    | .localPath _ =>
      skip d.target c .localTarget
      pure none
    | .remote url =>
      if c.visited url then
        warn (.cycle url c.stack) url c
        skip url c .cycle
        pure none
      else
        submit s url
        pure (some (d, url))

/-- The orders of a list of nodes. -/
def orders (s : Setup) (c : Context) : List Node → Run (List (Option Order))
  | [] => pure []
  | n :: ns => do
    let o ← order s c n
    let os ← orders s c ns
    pure (o :: os)

/-- Whether an import stands below the node. -/
def holdsImport (n : Node) : Bool :=
  (Node.walkAll n.children).any (Node.isAtRuleNamed "import".toList)

/-- Reports the remote imports of content that is not walked over. -/
def reportLeft (s : Setup) (c : Context) : List (Import × Node) → Run Unit
  | [] => pure ()
  | (d, _) :: rest => do
    match ← ofUrl (Target.classify d.target c.origin s.options.schemeText) with
    | .localPath _ => pure ()
    | .remote url =>
      if s.options.recursive then
        warn (.depth url (s.options.maxDepth.map Int.ofNat)) url c
        skip url c .depthExceeded
      else skip url c .notRecursive
    reportLeft s c rest

/-- Whether a node is an at-rule on the character set, which has no place inside another sheet. -/
def isCharset (n : Node) : Bool := n.isAtRuleNamed "charset".toList

/-- The nodes that take the place of an import: the content without character sets, in the blocks of
the import's conditions, with the text in front that the import had. -/
def replacement (d : Import) (n : Node) (content : List Node) : List Node :=
  Node.leadWith n.before (d.wrap (content.filter fun m => !isCharset m))

/-- Gives up on an import: it stays in place. -/
def giveUp (c : Context) (url : Text) (f : Fault) : Run Edit := do
  warn f url c
  skip url c .failed
  pure .keep

/-- Replaces an import by the content of its page. `descend` walks over content in the context
inside it. -/
def inline (s : Setup) (descend : Context → List Node → Run (List Node)) (c : Context) (n : Node)
    (o : Order) : Run Edit := do
  let (d, url) := o
  match ← await s url with
  | .error f => giveUp c url f
  | .ok text =>
    match Sheet.parse text (some url) with
    | .error f => giveUp c url (.ofSheet text f)
    | .ok sheet =>
      let children ←
        if s.options.anchorReferences then ofUrl (Node.anchorAll url sheet.children)
        else pure sheet.children
      let inner := c.descend url
      let content ←
        if c.canDescend then descend inner children
        else do
          reportLeft s inner (Import.findAll children inner.origin)
          pure children
      tell (.resolved url c.depth d.media)
      pure (.splice (replacement d n content))

mutual

/-- The edit of a node that has an order or none. -/
def editNode (s : Setup) (replace : Context → Node → Order → Run Edit) (c : Context) :
    Node → Option Order → Run Edit
  | n, some o => replace c n o
  | n@(.block _ _ children _), none =>
    if holdsImport n then do
      checkAborted s
      let os ← orders s c children
      let edits ← editNodes s replace c children os
      pure (.within edits)
    else pure .keep
  | _, none => pure .keep

/-- The edits of a list of nodes, given their orders. -/
def editNodes (s : Setup) (replace : Context → Node → Order → Run Edit) (c : Context) :
    List Node → List (Option Order) → Run (List Edit)
  | n :: ns, o :: os => do
    let e ← editNode s replace c n o
    let es ← editNodes s replace c ns os
    pure (e :: es)
  | _, _ => pure []

end

/-- The edits of the children of a container. At most as many descents may be nested as the fuel
says. -/
def edits (s : Setup) : Nat → Context → List Node → Run (List Edit)
  | 0, _, _ => halt .tooDeep
  | fuel + 1, c, ns => do
    let descend c ns := return Edit.applyAll ns (← edits s fuel c ns)
    checkAborted s
    let os ← orders s c ns
    editNodes s (inline s descend) c ns os

end Run

/-- What a run leaves behind. -/
structure Outcome where
  /-- What happens to each child of the sheet, or why the run ended without a result. -/
  edits : Except Halt (List Edit)
  progress : Progress

/-- The context at the start of a run over a sheet from `origin`. -/
def Context.atStart (o : Options) (origin : Option Text) : Context :=
  { options := o, stack := (known origin).toList }

/-- Resolves the imports of a sheet. -/
def Sheet.resolve (s : Setup) (sheet : Sheet) : Outcome :=
  let start := Context.atStart s.options sheet.origin
  let (edits, progress) := (Run.edits s (s.network.size + 2) start sheet.children).run.run {}
  ⟨edits, progress⟩

/-- The sheet after edits of its children. -/
def Sheet.edited (sheet : Sheet) (edits : List Edit) : Sheet :=
  { sheet with children := Edit.applyAll sheet.children edits }

end StyleSplice
