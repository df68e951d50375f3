import StyleSplice.Report.Event

/-!
# Telling listeners

Listeners subscribe to all events or to those of one kind. An event reaches the listeners to all
events first, then those of its kind, each group in the order of subscription. A listener may emit
an event of its own, which is told at once, and may fail, which ends the telling.
-/

namespace StyleSplice

/-- What is emitted: an event, or a message of a kind that the library does not know. -/
inductive Signal
  | event (e : Event)
  | other
deriving DecidableEq, Repr

/-- A listener. -/
inductive Listener
  /-- Records what it is told, then emits `relay`, then fails with `crash`. -/
  | recorder (id : Text) (relay : Option Signal) (crash : Option Text)
  /-- Writes events to the log. -/
  | logger
deriving Repr

/-- What a listener leaves behind. -/
inductive Record
  | heard (id : Text) (e : Option Event)
  | logged (level : LogLevel) (line : Text)
deriving DecidableEq, Repr

/-- The listeners to all events, and those to one kind, in the order of subscription. `none` stands
for the kind of unknown messages. -/
structure Bus where
  all : List Listener := []
  byKind : List (Option EventKind × Listener) := []

namespace Signal

/-- The event of a signal. -/
def event? : Signal → Option Event
  | .event e => some e
  | .other => none

end Signal

namespace Bus

/-- The bus with one more listener, to a kind or to all events. -/
def subscribe (b : Bus) (kind : Option (Option EventKind)) (l : Listener) : Bus :=
  match kind with
  | none => { b with all := b.all ++ [l] }
  | some k => { b with byKind := b.byKind ++ [(k, l)] }

/-- The listeners that a signal reaches, in order. -/
def audience (b : Bus) (s : Signal) : List Listener :=
  b.all ++ (b.byKind.filter fun x => x.1 == s.event?.map Event.kind).map Prod.snd

/-- The records of telling listeners, and the fault of the listener that failed. `emitAgain` tells a
relayed signal. -/
def tell (level : LogLevel) (emitAgain : Signal → List Record × Option Text) (s : Signal) :
    List Listener → List Record × Option Text
  | [] => ([], none)
  | .logger :: rest =>
    let (records, fault) := tell level emitAgain s rest
    let line := (s.event?.bind fun e => e.logAt level).map fun x => Record.logged x.1 x.2
    (line.toList ++ records, fault)
  | .recorder id relay crash :: rest =>
    let heard := Record.heard id s.event?
    let (relayed, fault) := match relay with
      | some r => emitAgain r
      | none => ([], none)
    match fault with
    | some f => (heard :: relayed, some f)
    | none =>
      match crash with
      | some f => (heard :: relayed, some f)
      | none =>
        let (records, fault) := tell level emitAgain s rest
        (heard :: relayed ++ records, fault)

/-- Emits a signal. Relays may be nested as often as the fuel says; deeper ones are not told. -/
def emitWithin (b : Bus) (level : LogLevel) : Nat → Signal → List Record × Option Text
  | 0, _ => ([], none)
  | fuel + 1, s => tell level (emitWithin b level fuel) s (b.audience s)

/-- How deep relays may be nested. -/
def relayLimit : Nat := 200

/-- Emits a signal: the records it leaves, in order, and the fault that ended the telling. -/
def emit (b : Bus) (level : LogLevel) (s : Signal) : List Record × Option Text :=
  emitWithin b level relayLimit s

end Bus

end StyleSplice
