import StyleSplice.Data.Value

/-!
# Options of a run

What a run may do: how deep it follows imports, how it asks for pages, and whether it anchors the
references of what it fetched. The counts carry their bounds.
-/

namespace StyleSplice

/-- How long to wait for a connection and for data, in seconds. -/
structure Timeouts where
  connect : Double := .finite false (5 * Double.pow 2 50) (-50)
  read : Double := .finite false (30 * Double.pow 2 48) (-48)
deriving DecidableEq, Repr, Inhabited

/-- The options of a run. -/
structure Options where
  /-- Whether imports inside fetched content are resolved as well. -/
  recursive : Bool := false
  /-- Whether relative references in fetched content are made absolute. -/
  anchorReferences : Bool := false
  /-- How many descents may be nested; without a value any number. -/
  maxDepth : Option Nat := none
  userAgent : Option Text := none
  /-- Whether to pass for a modern browser when no user agent is given. -/
  modernBrowser : Bool := false
  /-- Request headers in the order in which their names came up. -/
  headers : List (Text × Text) := []
  timeouts : Timeouts := {}
  /-- How many fetches may run at a time. -/
  workers : Nat := 8
  /-- The scheme of targets that start with two slashes in a document without an address. -/
  defaultScheme : Option Text := some "https".toList
  workers_pos : 0 < workers := by decide

namespace Options

instance : Inhabited Options := ⟨{}⟩

/-- The user agent of a modern browser. -/
def browserAgent : Text :=
  "Mozilla/5.0 AppleWebKit/537.36 (KHTML, like Gecko) Chrome/120.0.0.0 Safari/537.36".toList

/-- The user agent to send, if there is one. -/
def agent (o : Options) : Option Text :=
  let chosen := match o.userAgent with
    | some a => some a
    | none => if o.modernBrowser then some browserAgent else none
  chosen.filter fun a => !a.isEmpty

/-- The headers that go with every request. -/
def requestHeaders (o : Options) : List (Text × Text) :=
  match o.agent with
  | some a => put "User-Agent".toList a o.headers
  | none => o.headers

/-- The default scheme as a text. -/
def schemeText (o : Options) : Text := o.defaultScheme.getD "None".toList

end Options

end StyleSplice
