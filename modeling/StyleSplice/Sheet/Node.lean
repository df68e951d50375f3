import StyleSplice.Text.Basic

/-!
# Style sheets as trees

A style sheet is a list of nodes: comments, declarations, at-rules that end without a block, and
blocks. Every node keeps the raw text around its parts, so that writing a tree down again loses
nothing. `before` is the text between a node and the one in front of it, `after` the text between
the last node of a container and the container's end.
-/

namespace StyleSplice

/-- The parts of an at-rule up to its end or its opening brace. -/
structure AtHead where
  /-- The name, without the `@`. -/
  name : Text
  params : Text := []
  /-- The text between the name and the parameters. -/
  afterName : Text := [' ']
  /-- The text after the parameters. -/
  between : Text := []
deriving DecidableEq, Repr, Inhabited

/-- A property with its value. -/
structure Declaration where
  property : Text
  value : Text
  before : Text := []
  /-- The text between the property and the value, with the colon. -/
  between : Text := [':', ' ']
  /-- The text between the value and the semicolon. -/
  trailing : Text := []
  /-- Whether a semicolon ends the declaration. -/
  semicolon : Bool := true
deriving DecidableEq, Repr, Inhabited

/-- What stands in front of the opening brace of a block. -/
inductive Head
  /-- A selector and the text after it. -/
  | rule (selector between : Text)
  | atRule (head : AtHead)
deriving DecidableEq, Repr, Inhabited

/-- A node of a style sheet. -/
inductive Node
  | comment (before body : Text)
  | declaration (d : Declaration)
  /-- An at-rule without a block; `semicolon` tells whether one ends it. -/
  | statement (before : Text) (head : AtHead) (semicolon : Bool)
  /-- A rule or an at-rule with a block. -/
  | block (before : Text) (head : Head) (children : List Node) (after : Text)
deriving Repr, Inhabited

/-- A style sheet; `origin` is the address it was fetched from. -/
structure Sheet where
  children : List Node
  after : Text := []
  origin : Option Text := none
deriving Repr, Inhabited

/-- The text of an at-rule up to its end or its opening brace. -/
def AtHead.text (h : AtHead) : Text :=
  '@' :: h.name ++ h.afterName ++ h.params ++ h.between

/-- The text in front of an opening brace. -/
def Head.text : Head → Text
  | .rule selector between => selector ++ between
  | .atRule h => h.text

/-- The text of a declaration. -/
def Declaration.text (d : Declaration) : Text :=
  d.before ++ d.property ++ d.between ++ d.value ++
    (if d.semicolon then d.trailing ++ [';'] else [])

mutual

/-- The text of a node with everything below it. -/
def Node.text : Node → Text
  | .comment before body => before ++ '/' :: '*' :: body ++ ['*', '/']
  | .declaration d => d.text
  | .statement before h semicolon => before ++ h.text ++ (if semicolon then [';'] else [])
  | .block before h children after =>
    before ++ h.text ++ '{' :: Node.textOf children ++ after ++ ['}']

/-- The text of a list of nodes. -/
def Node.textOf : List Node → Text
  | [] => []
  | n :: ns => n.text ++ Node.textOf ns

end

@[simp] theorem Node.textOf_nil : Node.textOf [] = [] := by simp [Node.textOf]

@[simp] theorem Node.textOf_cons (n : Node) (ns : List Node) :
    Node.textOf (n :: ns) = n.text ++ Node.textOf ns := by simp [Node.textOf]

@[simp] theorem Node.textOf_append (ms ns : List Node) :
    Node.textOf (ms ++ ns) = Node.textOf ms ++ Node.textOf ns := by
  induction ms with
  | nil => simp
  | cons m ms ih => simp [ih]

/-- The text of a style sheet. -/
def Sheet.text (s : Sheet) : Text := Node.textOf s.children ++ s.after

/-- The nodes below a node; none unless it is a block. -/
def Node.children : Node → List Node
  | .block _ _ ns _ => ns
  | _ => []

/-- The at-rule head of a node, when it is an at-rule. -/
def Node.atHead? : Node → Option AtHead
  | .statement _ h _ => some h
  | .block _ (.atRule h) _ _ => some h
  | _ => none

/-- The text in front of a node. -/
def Node.before : Node → Text
  | .comment before _ => before
  | .declaration d => d.before
  | .statement before _ _ => before
  | .block before _ _ _ => before

/-- The node with another text in front of it. -/
def Node.withBefore (before : Text) : Node → Node
  | .comment _ body => .comment before body
  | .declaration d => .declaration { d with before }
  | .statement _ h semicolon => .statement before h semicolon
  | .block _ h ns after => .block before h ns after

/-- The list with another text in front of its first node. -/
def Node.leadWith (before : Text) : List Node → List Node
  | [] => []
  | n :: ns => n.withBefore before :: ns

end StyleSplice
