import StyleSplice.Number.Double
import StyleSplice.Text.Quoted

/-!
# Configuration values

The values that a configuration file can hold, and how a message shows them.
-/

namespace StyleSplice

/-- A value of a configuration. -/
inductive Value
  | null
  | bool (b : Bool)
  | int (n : Int)
  | double (x : Double)
  | text (s : Text)
  | list (items : List Value)
  /-- Names with values, in the order in which the names came up. -/
  | object (fields : List (Text × Value))
deriving Repr, Inhabited

namespace Value

mutual

/-- The value as a message shows it. -/
def literal : Value → Text
  | .null => "None".toList
  | .bool b => (if b then "True" else "False").toList
  | .int n => Text.ofInt n
  | .double x => x.text
  | .text s => s.quoted
  | .list items => '[' :: literalItems items ++ [']']
  | .object fields => '{' :: literalFields fields ++ ['}']

/-- Values with commas between them. -/
def literalItems : List Value → Text
  | [] => []
  | [v] => v.literal
  | v :: vs => v.literal ++ ',' :: ' ' :: literalItems vs

/-- Names with their values, and commas between them. -/
def literalFields : List (Text × Value) → Text
  | [] => []
  | [(k, v)] => k.quoted ++ ':' :: ' ' :: v.literal
  | (k, v) :: fields => k.quoted ++ ':' :: ' ' :: v.literal ++ ',' :: ' ' :: literalFields fields

end

/-- The value as plain text: a text stands for itself. -/
def plain : Value → Text
  | .text s => s
  | v => v.literal

/-- The name of a value's kind. -/
def kindName : Value → String
  | .null => "NoneType"
  | .bool _ => "bool"
  | .int _ => "int"
  | .double _ => "float"
  | .text _ => "str"
  | .list _ => "list"
  | .object _ => "dict"

/-- Whether a value says nothing: null, false, zero, or something empty. -/
def isVoid : Value → Bool
  | .null => true
  | .bool b => !b
  | .int n => n = 0
  | .double x => x.isInt 0
  | .text s => s.isEmpty
  | .list items => items.isEmpty
  | .object fields => fields.isEmpty

/-- The whole number that a value counts as. -/
def asInt? : Value → Option Int
  | .int n => some n
  | .bool b => some (if b then 1 else 0)
  | _ => none

/-- Whether two simple values are the same key. Numbers are compared by value. -/
def sameKey : Value → Value → Bool
  | .null, .null => true
  | .text s, .text t => s = t
  | .double x, .double y => x.sameValue y
  | .double x, v => (v.asInt?.map fun n => x.isInt n).getD false
  | v, .double x => (v.asInt?.map fun n => x.isInt n).getD false
  | v, w =>
    match v.asInt?, w.asInt? with
    | some m, some n => m = n
    | _, _ => false

end Value

/-- Sets the value of a key; a new key goes to the end. -/
def putBy {κ α : Type} (same : κ → κ → Bool) (k : κ) (v : α) : List (κ × α) → List (κ × α)
  | [] => [(k, v)]
  | (k', v') :: rest => if same k' k then (k', v) :: rest else (k', v') :: putBy same k v rest

/-- Sets the value of a name; a new name goes to the end. -/
def put {α : Type} (k : Text) (v : α) (fields : List (Text × α)) : List (Text × α) :=
  putBy (fun a b => a == b) k v fields

/-- The value of a name. -/
def field? {α : Type} (k : Text) (fields : List (Text × α)) : Option α :=
  (fields.find? fun x => x.1 == k).map Prod.snd

end StyleSplice
