import StyleSplice.Sheet.Parser

/-!
# Faults of a run

What can go wrong with one import, or with a whole run. Faults of the transport, of the fetched text
and of the import graph leave the import where it is; the others end the run.
-/

namespace StyleSplice

/-- A fault, with what its message needs. -/
inductive Fault
  /-- Any fault without a kind of its own. -/
  | general (message : Text)
  /-- A page could not be fetched, for no more special reason. -/
  | transport (message url : Text)
  | network (message url : Text)
  | timedOut (message url : Text)
  | status (message : Text) (code : Int) (url : Text)
  /-- The text is no style sheet. -/
  | sheet (message : Text) (line column : Option Int)
  /-- The import leads back to a sheet on the path to it. -/
  | cycle (url : Text) (path : List Text)
  | depth (url : Text) (limit : Option Int)
  | aborted (message : Text)
  | configuration (message : Text)
deriving DecidableEq, Repr

namespace Fault

/-- A number in a message, or the word for none. -/
def optional : Option Int → Text
  | some n => Text.ofInt n
  | none => "None".toList

/-- The wording of a fault. -/
def message : Fault → Text
  | .general m | .transport m _ | .network m _ | .timedOut m _ | .status m _ _ => m
  | .sheet m none _ => m
  | .sheet m (some line) column =>
    m ++ " at ".toList ++ Text.ofInt line ++ ':' :: optional column
  | .cycle url path =>
    "Import cycle detected: ".toList ++ Text.joinWith " -> ".toList (path ++ [url])
  | .depth url limit =>
    "Not resolving ".toList ++ url ++ ": maximum import depth ".toList ++ optional limit ++
      " reached".toList
  | .aborted m | .configuration m => m

/-- The rule that a fault breaks. -/
def rule : Fault → String
  | .transport .. | .network .. | .timedOut .. | .status .. => "transport_failure"
  | .sheet .. => "parse_failure"
  | .cycle .. => "cycle_detected"
  | .depth .. => "depth_exceeded"
  | .general _ | .aborted _ | .configuration _ => "error"

/-- Whether a page could not be fetched. -/
def isTransport : Fault → Bool
  | .transport .. | .network .. | .timedOut .. | .status .. => true
  | _ => false

/-- The fault of an answer with the given status. -/
def ofStatus (code : Int) (url : Text) : Fault :=
  let front :=
    if code = 404 then "Not found: ".toList
    else if code = 401 ∨ code = 403 then "Access denied (".toList ++ Text.ofInt code ++ "): ".toList
    else if 500 ≤ code ∧ code ≤ 599 then "Server error (".toList ++ Text.ofInt code ++ "): ".toList
    else "Unexpected status ".toList ++ Text.ofInt code ++ ": ".toList
  .status (front ++ url) code url

/-- The fault of a text that is no style sheet. -/
def ofSheet (source : Text) (f : SheetFault) : Fault :=
  let index := f.index source
  .sheet f.mistake.message.toList (some (lineAt source index)) (some (columnAt source index))

end Fault

end StyleSplice
