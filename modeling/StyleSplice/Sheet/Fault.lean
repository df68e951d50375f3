import StyleSplice.Text.Place

/-!
# What can be wrong with the text of a style sheet

A reader hands on the text from the faulty place to the end; its length tells where in the whole
text that is.
-/

namespace StyleSplice

/-- The ways in which a text fails to be a style sheet. -/
inductive Mistake
  | unclosedString
  | unclosedComment
  | unclosedBlock
  | unexpectedBrace
  | namelessAtRule
  | unknownWord
deriving DecidableEq, Repr

/-- The wording of a mistake. -/
def Mistake.message : Mistake → String
  | .unclosedString => "Unclosed string"
  | .unclosedComment => "Unclosed comment"
  | .unclosedBlock => "Unclosed block"
  | .unexpectedBrace => "Unexpected \x7d"
  | .namelessAtRule => "At-rule without name"
  | .unknownWord => "Unknown word"

/-- A mistake and the text from its place on. -/
structure SheetFault where
  mistake : Mistake
  /-- The text from the faulty place to the end. -/
  rest : Text
deriving DecidableEq, Repr

/-- How many characters of the whole text stand in front of the mistake. -/
def SheetFault.index (source : Text) (f : SheetFault) : Nat := source.length - f.rest.length

end StyleSplice
