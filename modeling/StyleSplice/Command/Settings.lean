import StyleSplice.Data.Reader
import StyleSplice.Options.Reader

/-!
# Settings of a command

The options of a run come from a configuration file and from the switches of the command, which win
over the file. Headers are merged one by one.
-/

namespace StyleSplice

/-- The options that the switches of a command set. -/
structure Flags where
  recursive : Option Bool := none
  anchorReferences : Option Bool := none
  maxDepth : Option Int := none
  userAgent : Option Text := none
  modernBrowser : Option Bool := none
  timeout : Option Double := none
  headers : List (Text × Text) := []

/-- What can be wrong with the settings of a command. -/
inductive SettingsFault
  /-- The text of the file is no configuration. -/
  | data (source : Text) (f : DataFault)
  /-- The configuration is not an object. -/
  | noObject (path : Text)
  /-- Headers that are neither an object nor a list of pairs. -/
  | notIterable (v : Value)
  | notSequence (index : Nat)
  | notPair (index length : Nat)
  /-- The name of a header is a list or an object. -/
  | badName (v : Value)
  | option (f : OptionFault)
deriving Repr

/-- The wording of a fault. -/
def SettingsFault.message : SettingsFault → Text
  | .data source f => (f.message source).toList
  | .noObject path => path ++ ": expected a JSON object".toList
  | .notIterable v => ("'" ++ v.kindName ++ "' object is not iterable").toList
  | .notSequence index =>
    ("cannot convert dictionary update sequence element #" ++ toString index ++
      " to a sequence").toList
  | .notPair index length =>
    ("dictionary update sequence element #" ++ toString index ++ " has length " ++
      toString length ++ "; 2 is required").toList
  | .badName v => ("unhashable type: '" ++ v.kindName ++ "'").toList
  | .option f => f.message.toList

namespace Value

/-- The members of a value that stands for a sequence. -/
def members? : Value → Option (List Value)
  | .list items => some items
  | .text s => some (s.map fun c => .text [c])
  | .object fields => some (fields.map fun x => .text x.1)
  | _ => none

/-- Whether a value can be the name of a header. -/
def isSimple : Value → Bool
  | .list _ | .object _ => false
  | _ => true

/-- Reads pairs, the first of which has the position `index`. A later pair of the same name gives it
another value. -/
def readPairs (index : Nat) (pairs : List (Value × Value)) :
    List Value → Except SettingsFault (List (Value × Value))
  | [] => .ok pairs
  | v :: rest =>
    match v.members? with
    | none => .error (.notSequence index)
    | some [k, w] =>
      if k.isSimple then readPairs (index + 1) (putBy sameKey k w pairs) rest
      else .error (.badName k)
    | some items => .error (.notPair index items.length)

/-- Reads headers from a configuration: names with values, or nothing for a void value. -/
def headerPairs (v : Value) : Except SettingsFault (List (Value × Value)) :=
  if v.isVoid then .ok []
  else
    match v with
    | .object fields => .ok (fields.map fun x => (.text x.1, x.2))
    | v =>
      match v.members? with
      | some items => readPairs 0 [] items
      | none => .error (.notIterable v)

end Value

namespace Flags

/-- The settings of the switches other than headers, in their order. -/
def settings (f : Flags) : List (Text × Value) :=
  [("recursive", f.recursive.map Value.bool), ("resolve_urls", f.anchorReferences.map Value.bool),
    ("max_depth", f.maxDepth.map Value.int), ("user_agent", f.userAgent.map Value.text),
    ("modern_browser", f.modernBrowser.map Value.bool),
    ("timeout", f.timeout.map Value.double)].filterMap fun x => x.2.map fun v => (x.1.toList, v)

/-- The headers of the configuration with those of the switches. -/
def mergedHeaders (f : Flags) (configured : List (Value × Value)) : List (Value × Value) :=
  f.headers.foldl (fun hs h => putBy Value.sameKey (.text h.1) (.text h.2) hs) configured

/-- The settings of a configuration with those of the switches in their place. Headers come last. -/
def merge (f : Flags) (config : List (Text × Value)) :
    Except SettingsFault (List (Text × Setting)) :=
  let name := "headers".toList
  match ((field? name config).getD .null).headerPairs with
  | .error e => .error e
  | .ok configured =>
    let headers := f.mergedHeaders configured
    let others := f.settings.foldl (fun c x => put x.1 x.2 c) (config.filter fun x => x.1 != name)
    let settings := others.map fun x => (x.1, Setting.value x.2)
    .ok (if headers.isEmpty then settings else settings ++ [(name, .headers headers)])

/-- The options of a configuration and switches. -/
def options (f : Flags) (config : List (Text × Value)) : Except SettingsFault Options :=
  match f.merge config with
  | .error e => .error e
  | .ok settings => (Options.ofSettings settings).mapError .option

end Flags

/-- Reads the text of a configuration file. -/
def readConfig (path source : Text) : Except SettingsFault (List (Text × Value)) :=
  match Value.read source with
  | .error f => .error (.data source f)
  | .ok (.object fields) => .ok fields
  | .ok _ => .error (.noObject path)

end StyleSplice
