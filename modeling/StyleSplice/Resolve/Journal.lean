import StyleSplice.Resolve.Run

/-!
# The contexts of one run

A run has many contexts, one for every sheet that the walk is in. They share the findings and the
call to stop. A journal is a run as its contexts see it, step by step.
-/

namespace StyleSplice

/-- The contexts of a run in the order in which they came up, and what they share. -/
structure Journal where
  contexts : List Context
  findings : List Diagnostic := []
  /-- Whether the run takes notice of a call to stop. -/
  listens : Bool := false
  /-- Whether somebody has called to stop. -/
  stopped : Bool := false

/-- A step that is taken in a context. -/
inductive JournalStep
  | descend (url : Text)
  | visited (url : Text)
  | warn (rule : String) (severity : Severity) (message : Text)
  | stop
  /-- Look whether somebody has called to stop. -/
  | check
deriving DecidableEq, Repr

/-- What a step answers. -/
inductive JournalReply
  /-- The number of a new context. -/
  | entered (number : Nat)
  | visited (yes : Bool)
  | done
deriving DecidableEq, Repr

namespace Journal

/-- A journal with its first context, which has the number zero. -/
def start (c : Context) (listens : Bool) : Journal := { contexts := [c], listens }

/-- Whether the run has to end. -/
def mustEnd (j : Journal) : Bool := j.listens && j.stopped

/-- Takes a step in a context: the journal and the context after it, and the answer. -/
def step (j : Journal) (c : Context) : JournalStep → Journal × Context × Except Halt JournalReply
  | .descend url =>
    let inner := c.descend url
    ({ j with contexts := j.contexts ++ [inner] }, inner, .ok (.entered j.contexts.length))
  | .visited url => (j, c, .ok (.visited (c.visited url)))
  | .warn rule severity message =>
    let finding : Diagnostic := ⟨rule, severity, message, none, c.depth⟩
    ({ j with findings := j.findings ++ [finding] }, c, .ok .done)
  | .stop => ({ j with stopped := true }, c, .ok .done)
  | .check => (j, c, if j.mustEnd then .error .aborted else .ok .done)

end Journal

end StyleSplice
