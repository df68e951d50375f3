import StyleSplice.Text.Basic

/-!
# The folder of a command

A command reads files and writes one. What it sees of the file system is what is at a path, and
whether a path can be written to.
-/

namespace StyleSplice

/-- Why a path cannot be used. -/
inductive PathFault
  | missing
  | folder
  /-- A file stands where a folder should be. -/
  | notFolder
deriving DecidableEq, Repr

/-- The wording of the system. -/
def PathFault.message : PathFault → String
  | .missing => "No such file or directory"
  | .folder => "Is a directory"
  | .notFolder => "Not a directory"

/-- The file system as a command sees it. -/
structure Folder where
  /-- The text of the file at a path. -/
  read : Text → Except PathFault Text
  /-- Why a path cannot be written to, if it cannot. -/
  refuses : Text → Option PathFault

namespace Folder

/-- The names on a path, without those that stay in place; none for a path that leaves the folder. -/
def steps? (path : Text) : Option (List Text) :=
  if path.isEmpty || path.head? = some '/' then none
  else
    (path.splitOn '/').foldl
      (fun done s =>
        done.bind fun done =>
          if s.isEmpty || s = ['.'] then some done
          else if s = ['.', '.'] then (if done.isEmpty then none else some done.dropLast)
          else some (done ++ [s]))
      (some [])

/-- The text at some names among files with names of their own. -/
def lookup (files : List (List Text × Text)) (steps : List Text) : Except PathFault Text :=
  match files.find? fun f => f.1 == steps with
  | some f => .ok f.2
  | none =>
    if files.any fun f => f.1.isPrefixOf steps then .error .notFolder
    else if steps.isEmpty || files.any fun f => steps.isPrefixOf f.1 then .error .folder
    else .error .missing

/-- The folder that holds the given files and nothing else. -/
def ofFiles (files : List (Text × Text)) : Folder :=
  let files := files.filterMap fun f => (steps? f.1).map fun steps => (steps, f.2)
  let ends (path : Text) := path.getLast? == some '/'
  { read := fun path =>
      match steps? path with
      | none => .error .missing
      | some steps =>
        match lookup files steps with
        | .ok text => if ends path then .error .notFolder else .ok text
        | .error f => .error f
    refuses := fun path =>
      match steps? path with
      | none => some .missing
      | some steps =>
        match lookup files steps with
        | .ok _ => if ends path then some .notFolder else none
        | .error .missing =>
          match lookup files steps.dropLast with
          | .ok _ => some .notFolder
          | .error .folder => if ends path then some .folder else none
          | .error f => some f
        | .error f => some f }

end Folder

/-- The text with every line end written as a line feed. -/
def Text.unifyLines : Text → Text
  | [] => []
  | '\r' :: '\n' :: r => '\n' :: unifyLines r
  | '\r' :: r => '\n' :: unifyLines r
  | c :: r => c :: unifyLines r

end StyleSplice
