import StyleSplice.Command.Run

/-!
# What a command reads

Before a command runs it must be known which files it looks at, and whether it looks at its input.
Both can be told from the arguments alone.
-/

namespace StyleSplice

/-- What a command line looks at. -/
structure Needs where
  input : Bool := false
  files : List Text := []
deriving DecidableEq, Repr

namespace Needs

/-- The needs of a command with the given operands that looks at other files as well. -/
def ofOperands (operands others : List Text) : Needs :=
  let path := operands.head?.getD Surroundings.dash
  if path = Surroundings.dash then { input := true, files := others }
  else { files := path :: others }

/-- The needs of a named command. -/
def ofCommand (args : List Text) : CommandName → Needs
  | .resolve =>
    match Switch.read ResolveSwitch.table true none args with
    | .ok (uses, operands) => ofOperands operands (Switch.values uses .config)
    | .error _ => {}
  | .inspect =>
    match Switch.read InspectSwitch.table true none args with
    | .ok (_, operands) => ofOperands operands []
    | .error _ => {}

/-- The needs of a command line. -/
def ofArguments (args : List Text) : Needs :=
  match Switch.read GlobalSwitch.table false none args with
  | .ok ([], name :: rest) => ((CommandName.ofText? name).map (ofCommand rest)).getD {}
  | _ => {}

end Needs

end StyleSplice
