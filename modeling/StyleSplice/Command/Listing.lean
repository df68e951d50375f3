import StyleSplice.Import.Directive
import StyleSplice.Sheet.Parser
import StyleSplice.Url.Target

/-!
# Listing imports

The imports of a sheet in the order of the text, one on a line: where it points, and its conditions.
-/

namespace StyleSplice

namespace Listing

/-- The scheme of targets that start with two slashes. -/
def scheme : Text := "https".toList

/-- The conditions of an import, each with its name. -/
def conditions (d : Import) : List Text :=
  let layer := d.layer.map fun l =>
    "layer=".toList ++ if l.isEmpty then "<anonymous>".toList else l
  let supports := d.supports.map fun s => "supports=".toList ++ s
  let media := if d.media.isEmpty then [] else ["media=\"".toList ++ d.media ++ ['\x22']]
  layer.toList ++ supports.toList ++ media

/-- Where an import points. -/
def place : Target → Text
  | .remote url => "  remote  ".toList ++ url
  | .localPath path => "  local   ".toList ++ path

/-- The line for an import whose target has been classified. -/
def line (d : Import) (t : Target) : Text :=
  Text.joinWith "  ".toList (place t :: conditions d) ++ ['\n']

/-- The lines for imports in a document at `origin`, up to the first whose target cannot be
classified. -/
def lines (origin : Option Text) : List Import → Text × Option UrlFault
  | [] => ([], none)
  | d :: rest =>
    match Target.classify d.target origin scheme with
    | .error f => ([], some f)
    | .ok t =>
      let (text, fault) := lines origin rest
      (line d t ++ text, fault)

/-- The imports of a sheet. -/
def imports (s : Sheet) : List Import := (Import.findAll s.children s.origin).map Prod.fst

/-- The listing of a sheet, up to the first target that cannot be classified. -/
def text (s : Sheet) : Text × Option UrlFault :=
  let ds := imports s
  let (rest, fault) := lines s.origin ds
  ("Imports: ".toList ++ Text.ofNat ds.length ++ '\n' :: rest, fault)

end Listing

end StyleSplice
