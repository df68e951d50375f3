import StyleSplice.Text.Basic

/-!
# Places in a text

A place is known by how many characters stand in front of it. Messages give it as a line and a
column.
-/

namespace StyleSplice

/-- The line of a place, counted from one. Only a line feed ends a line. -/
def lineAt (source : Text) (index : Nat) : Nat := (source.take index).count '\n' + 1

/-- The column of a place in its line, counted from one. -/
def columnAt (source : Text) (index : Nat) : Nat :=
  ((source.take index).reverse.takeWhile (· ≠ '\n')).length + 1

end StyleSplice
