import StyleSplice.Report.Fault

/-!
# Diagnostics

A diagnostic says what a run found and left as it was.
-/

namespace StyleSplice

/-- How serious a finding is. -/
inductive Severity
  | error
  | warning
  | info
deriving DecidableEq, Repr

/-- The name of a severity. -/
def Severity.text : Severity → String
  | .error => "ERROR"
  | .warning => "WARNING"
  | .info => "INFO"

/-- The severity with a name. -/
def Severity.ofText? (s : Text) : Option Severity :=
  [Severity.error, .warning, .info].find? fun x => x.text.toList == s

/-- A finding about an import. `depth` counts the sheets around the one that holds the import. -/
structure Diagnostic where
  rule : String
  severity : Severity
  message : Text
  url : Option Text := none
  depth : Int := 0
deriving DecidableEq, Repr

namespace Diagnostic

/-- The finding that a fault makes. -/
def ofFault (f : Fault) (url : Option Text) (depth : Int) (severity : Severity := .warning) :
    Diagnostic :=
  ⟨f.rule, severity, f.message, url, depth⟩

/-- The line for a finding. An empty address is not shown. -/
def text (d : Diagnostic) : Text :=
  let place := match d.url with
    | some (c :: url) => " [url=".toList ++ c :: url ++ [']']
    | _ => []
  d.severity.text.toList ++ place ++ ": ".toList ++ d.message

end Diagnostic

end StyleSplice
