import StyleSplice.Command.Arguments
import StyleSplice.Command.Listing
import StyleSplice.Resolve.Run

/-!
# Running a command

A command line is turned into a report: what goes to the output and to the messages, the file that is
written, and the exit code. Nothing is read or written here; the report says what to do.
-/

namespace StyleSplice

/-- A fault that no command expects. -/
inductive Crash
  | url (f : UrlFault)
  | halted (h : Halt)
  | option (f : OptionFault)
deriving Repr

/-- The wording of a crash. -/
def Crash.message : Crash → Text
  | .url f => f.message.toList
  | .halted h => h.message
  | .option f => f.message.toList

/-- What a command does. -/
structure Report where
  exitCode : Nat := 0
  out : Text := []
  /-- Messages, apart from the output. -/
  err : Text := []
  /-- The path and the new text of the file that is written. -/
  written : Option (Text × Text) := none
  crash : Option Crash := none
  /-- The timeouts of the network, if one was set up. -/
  timeouts : Option Timeouts := none
  /-- The headers of the requests, if there were any. -/
  asked : Option Headers := none

namespace Report

/-- A line of messages. -/
def line (front : String) (message : Text) : Text := front.toList ++ message ++ ['\n']

/-- The report on a wrong use of a command. -/
def ofUsage (f : UsageFault) : Report := { exitCode := 2, err := line "Error: " f.message }

/-- The report on a crash. -/
def ofCrash (c : Crash) : Report := { exitCode := 1, crash := some c }

end Report

/-- A hint at how the program is used. -/
def usageHint : Text := "usage: [--version] (resolve | inspect) [switches] [file]\n".toList

/-- The answer to a question for the version. -/
def versionText : Text := "remote-import, version 0.1.0\n".toList

/-- Lists the imports of a sheet. -/
def InspectCall.perform (c : InspectCall) : Report :=
  match Sheet.parse c.source c.origin with
  | .error f =>
    { exitCode := 1, err := Report.line "Parse error: " (Fault.ofSheet c.source f).message }
  | .ok sheet =>
    match Listing.text sheet with
    | (out, none) => { out }
    | (out, some f) => { Report.ofCrash (.url f) with out }

namespace ResolveCall

/-- A line of the log. -/
def logLine (level : LogLevel) (message : Text) : Text :=
  Report.line level.text (" remote_import: ".toList ++ message)

/-- The log of a run. `finished` tells whether it came to its end. -/
def log (p : Progress) (finished : Bool) : Text :=
  let lines := (p.trace.filterMap (Event.logAt .info)).flatMap fun x => logLine x.1 x.2
  let count := p.diagnostics.length
  let last := if finished && 0 < count then
      logLine .info ("resolved with ".toList ++ Text.ofNat count ++ " warning(s)".toList)
    else []
  lines ++ last

/-- The options of the call. -/
def options (c : ResolveCall) (headers : List (Text × Text)) : Except SettingsFault Options :=
  let flags := { c.flags with headers }
  match c.config with
  | none => flags.options []
  | some (path, source) =>
    match readConfig path source with
    | .error f => .error f
    | .ok config => flags.options config

/-- The report on options that cannot be used. A number out of range is a crash. -/
def ofSettings : SettingsFault → Report
  | .option .tooLarge => Report.ofCrash (.option .tooLarge)
  | f => { exitCode := 2, err := Report.line "Configuration error: " f.message }

/-- The report on a run that came to its end. -/
def deliver (c : ResolveCall) (folder : Folder) (sheet : Sheet) (edits : List Edit)
    (p : Progress) : Report :=
  let text := (sheet.edited edits).text
  let log := if c.verbose then log p true else []
  let findings := p.diagnostics.flatMap fun d => Report.line "" d.text
  let done : Report :=
    { exitCode := if c.strict && p.diagnostics.any fun d => d.severity == .warning then 1 else 0
      err := log ++ findings }
  match c.output with
  | none => { done with out := text }
  | some path =>
    match folder.refuses path with
    | none => { done with written := some (path, text) }
    | some f =>
      let message :=
        "Could not open file ".toList ++ path.quoted ++ ": ".toList ++ f.message.toList
      { exitCode := 1, err := log ++ Report.line "Error: " message }

/-- Runs over a sheet with a network. -/
def run (c : ResolveCall) (folder : Folder) (options : Options) (network : Network)
    (sheet : Sheet) : Report :=
  let outcome := sheet.resolve { options, network }
  let p := outcome.progress
  let report : Report := match outcome.edits with
    | .ok edits => c.deliver folder sheet edits p
    | .error h => { Report.ofCrash (.halted h) with err := if c.verbose then log p false else [] }
  { report with
    asked := if p.ledger.entries.isEmpty then none else some options.requestHeaders }

/-- Resolves the imports of a sheet. -/
def perform (c : ResolveCall) (folder : Folder) (network : Options → Network) : Report :=
  match readHeaders [] c.headers with
  | .error f => .ofUsage f
  | .ok headers =>
    match c.options headers with
    | .error f => ofSettings f
    | .ok options =>
      let report : Report := match Sheet.parse c.source c.origin with
        | .error f =>
          let message := (Fault.ofSheet c.source f).message
          { exitCode := 1, err := Report.line "Parse error: " message }
        | .ok sheet => c.run folder options (network options) sheet
      { report with timeouts := some options.timeouts }

end ResolveCall

/-- A command. -/
inductive CommandName
  | resolve
  | inspect
deriving DecidableEq, Repr

/-- The names of the commands. -/
def CommandName.names : List (String × CommandName) := [("inspect", .inspect), ("resolve", .resolve)]

/-- The command with a name. -/
def CommandName.ofText? (name : Text) : Option CommandName :=
  (names.find? fun x => x.1.toList == name).map Prod.snd

/-- The report of a request. -/
def Request.report {α : Type} (perform : α → Report) : Except UsageFault (Request α) → Report
  | .error f => .ofUsage f
  | .ok .help => { out := usageHint }
  | .ok (.call c) => perform c

/-- The answer to the switches before the name of a command, if there are any. -/
def GlobalSwitch.report : List (Use GlobalSwitch) → Option Report
  | [] => none
  | (.version, _) :: _ => some { out := versionText }
  | (.help, _) :: _ => some { out := usageHint }

/-- The report on a name that no command has. A name that looks like a switch is read as one. -/
def unknownCommand (name : Text) (args : List Text) : Report :=
  let fault := UsageFault.noCommand name
    (Similar.words name (CommandName.names.map fun x => x.1.toList))
  match name with
  | [] => .ofUsage fault
  | c :: _ =>
    if isLetterOrNumber c then .ofUsage fault
    else
      match Switch.read GlobalSwitch.table false none (name :: args) with
      | .error f => .ofUsage f
      | .ok (uses, _) => (GlobalSwitch.report uses).getD (.ofUsage fault)

/-- Runs a command line. -/
def runCommand (s : Surroundings) (network : Options → Network) (args : List Text) : Report :=
  if args.isEmpty then { exitCode := 2, err := usageHint }
  else
    match Switch.read GlobalSwitch.table false none args with
    | .error f => .ofUsage f
    | .ok (uses, operands) =>
      match GlobalSwitch.report uses with
      | some report => report
      | none =>
        match operands with
        | [] => .ofUsage .missingCommand
        | name :: rest =>
          match CommandName.ofText? name with
          | some .resolve =>
            Request.report (fun c => c.perform s.folder network) (ResolveCall.read s rest)
          | some .inspect => Request.report InspectCall.perform (InspectCall.read s rest)
          | none => unknownCommand name rest

end StyleSplice
