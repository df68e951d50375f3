import StyleSplice.Text.Basic

/-!
# Events

What happens in a run, told to whoever listens.
-/

namespace StyleSplice

/-- Why an import stays in place. -/
inductive SkipReason
  | localTarget
  | notRecursive
  | depthExceeded
  | cycle
  | failed
deriving DecidableEq, Repr

/-- The name of a reason. -/
def SkipReason.text : SkipReason → String
  | .localTarget => "local"
  | .notRecursive => "not_recursive"
  | .depthExceeded => "depth_exceeded"
  | .cycle => "cycle"
  | .failed => "failed"

/-- An event. A reason is a text here, so that listeners can be told of any. -/
inductive Event
  | started (url : Text)
  | completed (url : Text) (size : Int)
  | failed (url message : Text)
  | resolved (url : Text) (depth : Int) (media : Text)
  | skipped (target : Text) (depth : Int) (reason : Text)
deriving DecidableEq, Repr

/-- The kinds of events. -/
inductive EventKind
  | started
  | completed
  | failed
  | resolved
  | skipped
deriving DecidableEq, Repr

namespace Event

/-- The kind of an event. -/
def kind : Event → EventKind
  | .started _ => .started
  | .completed .. => .completed
  | .failed .. => .failed
  | .resolved .. => .resolved
  | .skipped .. => .skipped

/-- The address that an event of a fetch is about. -/
def fetchUrl? : Event → Option Text
  | .started url => some url
  | .completed url _ => some url
  | .failed url _ => some url
  | _ => none

/-- Whether the event belongs to the walk over the tree and not to a fetch. -/
def isStep (e : Event) : Bool := e.fetchUrl?.isNone

end Event

/-- How much a line of the log matters, least first. -/
inductive LogLevel
  | debug
  | info
  | warning
  | error
deriving DecidableEq, Repr

namespace LogLevel

/-- The name of a level. -/
def text : LogLevel → String
  | .debug => "DEBUG"
  | .info => "INFO"
  | .warning => "WARNING"
  | .error => "ERROR"

/-- The place of a level in the order. -/
def rank : LogLevel → Nat
  | .debug => 0
  | .info => 1
  | .warning => 2
  | .error => 3

/-- The level with a name. -/
def ofText? (s : Text) : Option LogLevel :=
  [LogLevel.debug, .info, .warning, .error].find? fun x => x.text.toList == s

end LogLevel

/-- The level and wording of the log line for an event. -/
def Event.logLine : Event → LogLevel × Text
  | .started url => (.debug, "fetch started: ".toList ++ url)
  | .completed url size =>
    (.info, "fetched ".toList ++ url ++ " (".toList ++ Text.ofInt size ++ " chars)".toList)
  | .failed url message => (.warning, "fetch failed: ".toList ++ url ++ ": ".toList ++ message)
  | .resolved url depth _ =>
    (.info, "inlined ".toList ++ url ++ " at depth ".toList ++ Text.ofInt depth)
  | .skipped target _ reason =>
    (.debug, "left ".toList ++ target ++ " unresolved (".toList ++ reason ++ [')'])

/-- The log line for an event if it matters at the level. -/
def Event.logAt (level : LogLevel) (e : Event) : Option (LogLevel × Text) :=
  let (l, line) := e.logLine
  if level.rank ≤ l.rank then some (l, line) else none

end StyleSplice
