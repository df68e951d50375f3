import StyleSplice.Command.Needs
import StyleSplice.Web.Client

/-!
# The program

Reads what the command line asks for, runs it, and does what the report says. There is no connection
to the network, so every import of a page stays where it is.
-/

namespace StyleSplice

namespace Program

/-- The rest of a stream. -/
partial def readAll (stream : IO.FS.Stream) (done : String) : IO String := do
  let line ← stream.getLine
  if line.isEmpty then return done else readAll stream (done ++ line)

/-- The fault of an error of the system. -/
def pathFault : IO.Error → PathFault
  | .inappropriateType .. => .folder
  | _ => .missing

/-- The text of the file at a path. -/
def readFile (path : Text) : IO (Except PathFault Text) := do
  match ← (IO.FS.readFile path.str).toBaseIO with
  | .ok text => return .ok text.toList
  | .error e => return .error (pathFault e)

/-- The files at some paths. -/
def readFiles (paths : List Text) : IO (List (Text × Except PathFault Text)) :=
  paths.mapM fun path => return (path, ← readFile path)

/-- What a client without a connection finds. -/
def network (options : Options) : Network :=
  Client.network { timeouts := options.timeouts } .offline options.requestHeaders

/-- The report on a command line, when `refuses` tells which paths cannot be written to. -/
def report (args : List Text) (input : Text) (files : List (Text × Except PathFault Text))
    (refuses : Text → Option PathFault) : Report :=
  let folder : Folder := { read := fun path => (field? path files).getD (.error .missing), refuses }
  runCommand { input, folder } network args

/-- Writes the file of a report, if it has one. -/
def deliver (r : Report) : IO (Option (Text × PathFault)) := do
  match r.written with
  | none => return none
  | some (path, text) =>
    match ← (IO.FS.writeFile path.str text.str).toBaseIO with
    | .ok () => return none
    | .error e => return some (path, pathFault e)

/-- Prints a report. -/
def print (r : Report) : IO Unit := do
  IO.print r.out.str
  IO.eprint r.err.str
  if let some crash := r.crash then IO.eprintln crash.message.str

end Program

end StyleSplice

open StyleSplice in
/-- Runs the command line. A file that cannot be written turns into the report that says so. -/
def main (args : List String) : IO UInt32 := do
  let args := args.map String.toList
  let needs := Needs.ofArguments args
  let input ← if needs.input then Program.readAll (← IO.getStdin) "" else pure ""
  let files ← Program.readFiles needs.files
  let report := Program.report args input.toList files
  let first := report fun _ => none
  let last ← match ← Program.deliver first with
    | none => pure first
    | some (path, fault) => pure (report fun p => if p = path then some fault else none)
  Program.print last
  return UInt32.ofNat last.exitCode
