import StyleSplice.Command.Folder
import StyleSplice.Command.Settings
import StyleSplice.Command.Switch

/-!
# The arguments of the commands

Each command has its switches and at most one operand, the file to read; without one, or with a
hyphen, it reads its input. Values are checked in the order in which the switches were first given,
then the file is opened, and surplus operands are noticed last.
-/

namespace StyleSplice

/-- The switches before the name of a command. -/
inductive GlobalSwitch
  | version
  | help
deriving DecidableEq, Repr

/-- The switches of the command that resolves imports. -/
inductive ResolveSwitch
  | output
  | origin
  | recursive
  | anchorReferences
  | maxDepth
  | userAgent
  | modernBrowser
  | header
  | config
  | timeout
  | strict
  | verbose
  | help
  /-- The opposite of a switch. -/
  | no (s : ResolveSwitch)
deriving DecidableEq, Repr

/-- The switches of the command that lists imports. -/
inductive InspectSwitch
  | origin
  | help
deriving DecidableEq, Repr

/-- The table of the switches before the name of a command. -/
def GlobalSwitch.table : List (Switch GlobalSwitch) :=
  [{ names := ["--version"], id := .version }, { names := ["--help"], id := .help }]

/-- The table of the switches that resolving takes. -/
def ResolveSwitch.table : List (Switch ResolveSwitch) :=
  [{ names := ["-o", "--output"], id := .output, takesValue := true },
    { names := ["--from"], id := .origin, takesValue := true },
    { names := ["--recursive"], id := .recursive },
    { names := ["--no-recursive"], id := .no .recursive },
    { names := ["--resolve-urls"], id := .anchorReferences },
    { names := ["--no-resolve-urls"], id := .no .anchorReferences },
    { names := ["--max-depth"], id := .maxDepth, takesValue := true },
    { names := ["--user-agent"], id := .userAgent, takesValue := true },
    { names := ["--modern-browser"], id := .modernBrowser },
    { names := ["--no-modern-browser"], id := .no .modernBrowser },
    { names := ["-H", "--header"], id := .header, takesValue := true },
    { names := ["--config"], id := .config, takesValue := true },
    { names := ["--timeout"], id := .timeout, takesValue := true },
    { names := ["--strict"], id := .strict },
    { names := ["-v", "--verbose"], id := .verbose },
    { names := ["--help"], id := .help }]

/-- The table of the switches that listing takes. -/
def InspectSwitch.table : List (Switch InspectSwitch) :=
  [{ names := ["--from"], id := .origin, takesValue := true }, { names := ["--help"], id := .help }]

/-- What a command is given besides its arguments. -/
structure Surroundings where
  input : Text
  folder : Folder

namespace Surroundings

/-- The path that stands for the input or the output of the command. -/
def dash : Text := ['-']

/-- Opens the file to read. -/
def openSource (s : Surroundings) (operands : List Text) : Except UsageFault Text :=
  let path := operands.head?.getD dash
  if path = dash then .ok s.input.unifyLines
  else
    match s.folder.read path with
    | .ok text => .ok text.unifyLines
    | .error f => .error (.unreadable path f.message)

/-- Opens the file to read when no other operand is given. -/
def openOnly (s : Surroundings) (operands : List Text) : Except UsageFault Text :=
  match s.openSource operands with
  | .error f => .error f
  | .ok text => if operands.length ≤ 1 then .ok text else .error (.surplus (operands.drop 1))

end Surroundings

/-- The arguments of the command that lists imports. -/
structure InspectCall where
  source : Text
  origin : Option Text

/-- The arguments of the command that resolves imports. -/
structure ResolveCall where
  source : Text
  origin : Option Text := none
  /-- Where the result goes; to the output of the command without a path. -/
  output : Option Text := none
  /-- The path and the text of the configuration file. -/
  config : Option (Text × Text) := none
  /-- The switches that set options, headers aside. -/
  flags : Flags := {}
  /-- The headers as they were given. -/
  headers : List Text := []
  strict : Bool := false
  verbose : Bool := false

/-- A reading of arguments: a call, or a request for help. -/
inductive Request (α : Type)
  | call (c : α)
  | help

/-- Reads the arguments of the command that lists imports. -/
def InspectCall.read (s : Surroundings) (args : List Text) :
    Except UsageFault (Request InspectCall) :=
  match Switch.read InspectSwitch.table true none args with
  | .error f => .error f
  | .ok (uses, operands) =>
    if uses.any fun u => u.1 == .help then .ok .help
    else
      match s.openOnly operands with
      | .error f => .error f
      | .ok source => .ok (.call ⟨source, Switch.lastValue? uses .origin⟩)

namespace ResolveCall

/-- Whether a switch was given, or its opposite; the last one counts. -/
def choice (uses : List (Use ResolveSwitch)) (s : ResolveSwitch) : Option Bool :=
  (uses.reverse.find? fun u => u.1 == s || u.1 == .no s).map fun u => u.1 == s

/-- The largest number of descents. -/
def readDepth (value : Text) : Except UsageFault Int :=
  let name := "--max-depth".toList
  match readInt? value with
  | none => .error (.notInteger name value)
  | some n => if n < 0 then .error (.belowZero name n) else .ok n

/-- The time to wait. -/
def readTimeout (value : Text) : Except UsageFault Double :=
  match readDouble? value with
  | none => .error (.notNumber "--timeout".toList value)
  | some x => .ok x

/-- Checks that the configuration file can be read. -/
def readConfigFile (s : Surroundings) (path : Text) : Except UsageFault (Text × Text) :=
  match s.folder.read path with
  | .ok text => .ok (path, text.unifyLines)
  | .error .folder => .error (.isFolder "--config".toList path)
  | .error _ => .error (.noFile "--config".toList path)

/-- Enters the value of a switch that is checked. -/
def enter (s : Surroundings) (uses : List (Use ResolveSwitch)) (c : ResolveCall)
    (id : ResolveSwitch) : Except UsageFault ResolveCall :=
  let value := (Switch.lastValue? uses id).getD []
  match id with
  | .maxDepth => (readDepth value).map fun n => { c with flags := { c.flags with maxDepth := some n } }
  | .timeout => (readTimeout value).map fun x => { c with flags := { c.flags with timeout := some x } }
  | .config => (readConfigFile s value).map fun f => { c with config := some f }
  | _ => .ok c

/-- The call that the switches make, before their values are checked. -/
def ofUses (uses : List (Use ResolveSwitch)) : ResolveCall where
  source := []
  origin := Switch.lastValue? uses .origin
  output := (Switch.lastValue? uses .output).filter fun path => path ≠ Surroundings.dash
  flags :=
    { recursive := choice uses .recursive
      anchorReferences := choice uses .anchorReferences
      userAgent := Switch.lastValue? uses .userAgent
      modernBrowser := choice uses .modernBrowser }
  headers := Switch.values uses .header
  strict := uses.any fun u => u.1 == .strict
  verbose := uses.any fun u => u.1 == .verbose

/-- Reads the arguments of the command that resolves imports. -/
def read (s : Surroundings) (args : List Text) : Except UsageFault (Request ResolveCall) :=
  match Switch.read ResolveSwitch.table true none args with
  | .error f => .error f
  | .ok (uses, operands) =>
    if uses.any fun u => u.1 == .help then .ok .help
    else
      match (uses.map Prod.fst).foldlM (enter s uses) (ofUses uses) with
      | .error f => .error f
      | .ok c =>
        match s.openOnly operands with
        | .error f => .error f
        | .ok source => .ok (.call { c with source })

/-- Reads one header: a name that is not blank, a colon, and a value. -/
def readHeader (raw : Text) : Except UsageFault (Text × Text) :=
  match Text.cutAt (· == ':') raw with
  | none => .error (.badHeader raw)
  | some (name, value) =>
    let name := Text.trim isBlank name
    if name.isEmpty then .error (.badHeader raw) else .ok (name, Text.trim isBlank value)

/-- Reads headers in their order. A later header of the same name counts. -/
def readHeaders (done : List (Text × Text)) :
    List Text → Except UsageFault (List (Text × Text))
  | [] => .ok done
  | raw :: rest =>
    match readHeader raw with
    | .error f => .error f
    | .ok (name, value) => readHeaders (put name value done) rest

end ResolveCall

end StyleSplice
