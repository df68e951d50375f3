import StyleSplice.Options.Basic
import StyleSplice.Sheet.Node

/-!
# Where a run is

A context says which sheet the walk is in: how deep, and through which sheets it got there.
-/

namespace StyleSplice

/-- The place of the walk. `stack` holds the addresses of the sheets from the outermost to the one
that is walked over. -/
structure Context where
  options : Options
  depth : Nat := 0
  stack : List Text := []

namespace Context

/-- The address of the sheet that is walked over. -/
def origin (c : Context) : Option Text := c.stack.getLast?

/-- Whether the address belongs to a sheet around the walk. -/
def visited (c : Context) (url : Text) : Bool := c.stack.contains url

/-- Whether the imports of content fetched here may be resolved. -/
def canDescend (c : Context) : Bool :=
  c.options.recursive &&
    match c.options.maxDepth with
    | none => true
    | some limit => c.depth < limit

/-- The context inside a sheet that an import led to. -/
def descend (c : Context) (url : Text) : Context :=
  { c with depth := c.depth + 1, stack := c.stack ++ [url] }

end Context

end StyleSplice
