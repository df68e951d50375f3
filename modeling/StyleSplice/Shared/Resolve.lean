import StyleSplice.Resolve.Run
import StyleSplice.Shared.Store

/-!
# Resolving the imports of shared nodes

A run over nodes that others may hold the keys of. The content of a page goes into the store, and
what is done to it is done in place: its references are resolved, the blocks of conditions are put
around it, and its first node gets the text that stood in front of the import. The nodes of the
sheet stay as they are. A block in which imports are resolved is copied for that, and all other
nodes are shared between the sheet and the result.
-/

namespace StyleSplice

namespace Store

/-- The node of a key without what is below it. -/
def shell (s : Store) (k : Key) : Node := ((s.cell? k).map fun c => c.node []).getD default

/-- Whether an import stands below the node of a key. -/
def holdsImport (s : Store) (k : Key) : Bool :=
  (s.walk (s.childrenOf k)).any fun k => (s.shell k).isAtRuleNamed "import".toList

/-- Puts content in the place of an import: what is left without character sets goes into the blocks
of the import's conditions, and the text in front of the import goes in front of it. -/
def replacement (s : Store) (d : Import) (k : Key) (content : List Key) : Store × List Key :=
  let (s, ks) := s.wrapAll (content.filter fun j => !Run.isCharset (s.shell j)) d.wrappers
  match ks with
  | [] => (s, [])
  | j :: rest => (s.leadWith (s.shell k).before j, j :: rest)

end Store

/-- A computation of a run over nodes in a store. -/
abbrev StoreRun := ExceptT Halt (StateM (Store × Progress))

namespace StoreRun

open Run (Order)

/-- A computation that does not look at the store. -/
def ofRun {α : Type} (m : Run α) : StoreRun α :=
  ExceptT.mk fun (σ, p) =>
    let (result, p) := m.run.run p
    (result, σ, p)

/-- Reads something off the store. -/
def read {α : Type} (f : Store → α) : StoreRun α := do return f (← get).1

/-- Changes the store. -/
def change {α : Type} (f : Store → Store × α) : StoreRun α :=
  modifyGet fun (σ, p) =>
    let (σ, x) := f σ
    (x, σ, p)

/-- Gives up on an import: its node stays in place. -/
def giveUp (c : Context) (url : Text) (f : Fault) (k : Key) : StoreRun (List Key) := do
  let _ ← ofRun (Run.giveUp c url f)
  pure [k]

/-- Resolves the relative references below the keys. What was changed before a fault stays
changed. -/
def anchor (origin : Text) (ks : List Key) : StoreRun Unit := do
  match ← change fun σ => σ.anchor origin ks with
  | none => pure ()
  | some f => ofRun (Run.halt (.badUrl f))

/-- Puts the content of a page into the store. -/
def lay (s : Setup) (url : Text) (page : List Node) : StoreRun (List Key) := do
  let ks ← change fun σ => σ.plantAll page
  let _ ← (if s.options.anchorReferences then anchor url ks else pure ())
  pure ks

/-- Walks over the content of a page, or reports the imports in it. -/
def visit (s : Setup) (descend : Context → List Key → StoreRun (List Key)) (c : Context) (url : Text)
    (ks : List Key) : StoreRun (List Key) :=
  let inner := c.descend url
  if c.canDescend then descend inner ks
  else do
    let left ← read fun σ => (σ.imports ks inner.origin).map fun x => (x.1, σ.shell x.2)
    let _ ← ofRun (Run.reportLeft s inner left)
    pure ks

/-- The keys that take the place of an import whose page has content. -/
def splice (s : Setup) (descend : Context → List Key → StoreRun (List Key)) (c : Context) (k : Key)
    (o : Order) (page : List Node) : StoreRun (List Key) := do
  let (d, url) := o
  let ks ← lay s url page
  let content ← visit s descend c url ks
  let new ← change fun σ => σ.replacement d k content
  let _ ← ofRun (Run.tell (.resolved url c.depth d.media))
  pure new

/-- Replaces an import by the content of its page. -/
def inline (s : Setup) (descend : Context → List Key → StoreRun (List Key)) (c : Context) (k : Key)
    (o : Order) : StoreRun (List Key) := do
  match ← ofRun (Run.await s o.2) with
  | .error f => giveUp c o.2 f k
  | .ok text =>
    match Sheet.parse text (some o.2) with
    | .error f => giveUp c o.2 (.ofSheet text f) k
    | .ok sheet => splice s descend c k o sheet.children

/-- The keys that take the place of a list of keys, given their orders. -/
def eachKey (f : Key → Option Order → StoreRun (List Key)) :
    List Key → List (Option Order) → StoreRun (List Key)
  | k :: ks, o :: os => do
    let here ← f k o
    let rest ← eachKey f ks os
    pure (here ++ rest)
  | _, _ => pure []

/-- The keys that take the place of a key that has an order or none. Blocks may be nested as deep as
the first argument says. -/
def resolveKey (s : Setup) (replace : Context → Key → Order → StoreRun (List Key)) (c : Context) :
    Nat → Key → Option Order → StoreRun (List Key)
  | _, k, some o => replace c k o
  | 0, k, none => pure [k]
  | depth + 1, k, none => do
    match ← read fun σ => (σ.cell? k, σ.holdsImport k) with
    | (some (.block before h ks after), true) =>
      let _ ← ofRun (Run.checkAborted s)
      let shells ← read fun σ => ks.map σ.shell
      let os ← ofRun (Run.orders s c shells)
      let new ← eachKey (resolveKey s replace c depth) ks os
      let copy ← change fun σ => σ.add (.block before h new after)
      pure [copy]
    | _ => pure [k]

/-- The keys that take the place of the children of a container. At most as many descents may be
nested as the fuel says. -/
def resolveKeys (s : Setup) : Nat → Context → List Key → StoreRun (List Key)
  | 0, _, _ => ofRun (Run.halt .tooDeep)
  | fuel + 1, c, ks => do
    let _ ← ofRun (Run.checkAborted s)
    let (depth, shells) ← read fun σ => (σ.cells.size, ks.map σ.shell)
    let os ← ofRun (Run.orders s c shells)
    eachKey (resolveKey s (inline s (resolveKeys s fuel)) c depth) ks os

end StoreRun

end StyleSplice
