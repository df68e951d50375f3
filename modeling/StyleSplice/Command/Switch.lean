import StyleSplice.Command.Similar
import StyleSplice.Text.Quoted

/-!
# Switches of a command

The arguments of a command are switches and operands. A switch with a long name may take its value
after an equals sign; switches with short names may stand together behind one hyphen, where the
first one that takes a value takes the rest. A switch that has no value yet takes the next argument,
whatever that is. Two hyphens end the switches.
-/

namespace StyleSplice

/-- What can be wrong with the use of a command. -/
inductive UsageFault
  | noSwitch (name : Text) (similar : List Text)
  | noCommand (name : Text) (similar : List Text)
  | missingCommand
  | valueMissing (name : Text)
  | valueUnwanted (name : Text)
  | surplus (operands : List Text)
  | notInteger (name value : Text)
  | belowZero (name : Text) (n : Int)
  | notNumber (name value : Text)
  /-- A file that cannot be read, and why. -/
  | unreadable (path : Text) (reason : String)
  | noFile (name path : Text)
  | isFolder (name path : Text)
  | badHeader (raw : Text)
deriving DecidableEq, Repr

namespace UsageFault

/-- The words that may have been meant. -/
def suggestion : List Text → Text
  | [] => []
  | [w] => " Did you mean ".toList ++ w.quoted ++ ['?']
  | ws =>
    " (Did you mean one of: ".toList ++ Text.joinWith ", ".toList (ws.map Text.quoted) ++ "?)".toList

/-- The front of a message about the value of a switch. -/
def invalid (name : Text) : Text := "Invalid value for ".toList ++ name.quoted ++ ": ".toList

/-- The wording of a fault. -/
def message : UsageFault → Text
  | .noSwitch name similar =>
    "No such option ".toList ++ name.quoted ++ '.' :: suggestion similar
  | .noCommand name similar =>
    "No such command ".toList ++ name.quoted ++ '.' :: suggestion similar
  | .missingCommand => "Missing command.".toList
  | .valueMissing name => "Option ".toList ++ name.quoted ++ " requires an argument.".toList
  | .valueUnwanted name => "Option ".toList ++ name.quoted ++ " does not take a value.".toList
  | .surplus operands =>
    "Got unexpected extra argument".toList ++ (if operands.length = 1 then [] else ['s']) ++
      " (".toList ++ Text.joinWith [' '] operands ++ [')']
  | .notInteger name value =>
    invalid name ++ value.quoted ++ " is not a valid integer range.".toList
  | .belowZero name n => invalid name ++ Text.ofInt n ++ " is not in the range x>=0.".toList
  | .notNumber name value => invalid name ++ value.quoted ++ " is not a valid float.".toList
  | .unreadable path reason =>
    "Invalid value for '[SOURCE]': '".toList ++ path ++ "': ".toList ++ reason.toList
  | .noFile name path => invalid name ++ "File ".toList ++ path.quoted ++ " does not exist.".toList
  | .isFolder name path =>
    invalid name ++ "File ".toList ++ path.quoted ++ " is a directory.".toList
  | .badHeader raw =>
    "Invalid value for --header: expected 'Name: value', got ".toList ++ raw.quoted

end UsageFault

/-- A switch of a command. -/
structure Switch (σ : Type) where
  /-- The names: a hyphen and one character, or two hyphens and more. -/
  names : List String
  id : σ
  takesValue : Bool := false

/-- A switch that was given, with its value, which is empty for a switch that takes none. -/
abbrev Use (σ : Type) := σ × Text

namespace Switch

variable {σ : Type}

/-- Whether a name is a long one. -/
def isLong (name : Text) : Bool := "--".toList.isPrefixOf name

/-- The switch with a name. -/
def find? (table : List (Switch σ)) (name : Text) : Option (Switch σ) :=
  table.find? fun s => s.names.any fun w => w.toList == name

/-- The long names of the switches. -/
def longNames (table : List (Switch σ)) : List Text :=
  (table.flatMap fun s => s.names.map String.toList).filter isLong

/-- Reads the characters behind one hyphen: the switches they name, and the last of them if it still
needs a value. -/
def readCluster (table : List (Switch σ)) :
    Text → Except UsageFault (List (Use σ) × Option (σ × Text))
  | [] => .ok ([], none)
  | c :: r =>
    match find? table ['-', c] with
    | none => .error (.noSwitch ['-', c] [])
    | some s =>
      if s.takesValue then
        if r.isEmpty then .ok ([], some (s.id, ['-', c])) else .ok ([(s.id, r)], none)
      else
        match readCluster table r with
        | .error f => .error f
        | .ok (uses, waiting) => .ok ((s.id, []) :: uses, waiting)

/-- Reads an argument that starts with a hyphen. -/
def readArgument (table : List (Switch σ)) (arg : Text) :
    Except UsageFault (List (Use σ) × Option (σ × Text)) :=
  let (name, value) := match Text.cutAt (· == '=') arg with
    | some (name, value) => (name, some value)
    | none => (arg, none)
  match if isLong name then find? table name else none with
  | some s =>
    match s.takesValue, value with
    | true, some v => .ok ([(s.id, v)], none)
    | true, none => .ok ([], some (s.id, name))
    | false, some _ => .error (.valueUnwanted name)
    | false, none => .ok ([(s.id, [])], none)
  | none =>
    if isLong arg then .error (.noSwitch name (Similar.words name (longNames table)))
    else readCluster table (arg.drop 1)

/-- Whether an argument is read as switches. -/
def isSwitch (arg : Text) : Bool := arg.head? = some '-' && arg.length ≠ 1

/-- Reads the arguments of a command: the switches in their order, and the operands. `waiting` is a
switch that takes the next argument as its value. Unless `mixed`, the first operand ends the
switches. -/
def read (table : List (Switch σ)) (mixed : Bool) (waiting : Option (σ × Text)) :
    List Text → Except UsageFault (List (Use σ) × List Text)
  | [] =>
    match waiting with
    | some (_, name) => .error (.valueMissing name)
    | none => .ok ([], [])
  | arg :: rest =>
    match waiting with
    | some (id, _) =>
      match read table mixed none rest with
      | .error f => .error f
      | .ok (uses, operands) => .ok ((id, arg) :: uses, operands)
    | none =>
      if arg = "--".toList then .ok ([], rest)
      else if isSwitch arg then
        match readArgument table arg with
        | .error f => .error f
        | .ok (here, waiting) =>
          match read table mixed waiting rest with
          | .error f => .error f
          | .ok (uses, operands) => .ok (here ++ uses, operands)
      else if mixed then
        match read table mixed none rest with
        | .error f => .error f
        | .ok (uses, operands) => .ok (uses, arg :: operands)
      else .ok ([], arg :: rest)

/-- The value of the last use of a switch. -/
def lastValue? [BEq σ] (uses : List (Use σ)) (id : σ) : Option Text :=
  (uses.reverse.find? fun u => u.1 == id).map Prod.snd

/-- The values of all uses of a switch, in their order. -/
def values [BEq σ] (uses : List (Use σ)) (id : σ) : List Text :=
  (uses.filter fun u => u.1 == id).map Prod.snd

end Switch

end StyleSplice
