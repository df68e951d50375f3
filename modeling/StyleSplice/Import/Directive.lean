import StyleSplice.Sheet.Walk
import StyleSplice.Sheet.Span
import StyleSplice.Text.Classes

/-!
# Import directives

What an `@import` statement says: its target, bare or in `url()`, and the conditions under which
the imported sheet applies. The parameters are read from left to right: the target, then a layer,
then a condition on supported features; what is left is a list of media.
-/

namespace StyleSplice

/-- A decoded import. The raw target stands in the parameters from `start` up to `stop`. -/
structure Import where
  target : Text
  /-- The quote around the target, if there is one. -/
  quote : Option Char := none
  /-- Whether the target stands in `url()`. -/
  inUrl : Bool := false
  media : Text := []
  /-- The cascade layer; empty for a layer without a name. -/
  layer : Option Text := none
  /-- The condition in `supports()`. -/
  supports : Option Text := none
  /-- The address of the sheet that holds the import. -/
  origin : Option Text := none
  start : Nat := 0
  stop : Nat := 0
deriving DecidableEq, Repr, Inhabited

namespace Import

/-- The text after a closing bracket that only blanks precede. -/
def afterClosing? (s : Text) : Option Text :=
  match Text.trimStart isBlank s with
  | ')' :: r => some r
  | _ => none

/-- The shortest text that is followed by the quote and, after blanks, a closing bracket, and the
text after that bracket. -/
def quotedArgument? (quote : Char) : Text → Option (Text × Text)
  | [] => none
  | c :: r =>
    if c = quote then
      match afterClosing? r with
      | some rest => some ([], rest)
      | none => Text.consPart c (quotedArgument? quote r)
    else Text.consPart c (quotedArgument? quote r)

/-- A target as it is written: the raw text, its quote, its place, and the text after it. -/
structure RawTarget where
  raw : Text
  quote : Option Char
  inUrl : Bool
  start : Nat
  rest : Text

/-- The argument of a `url()` after `opened` characters, up to the first closing bracket. -/
def bareArgument? (opened : Nat) (s : Text) : Option RawTarget :=
  (Text.cutAt (· == ')') s).map fun x => ⟨Text.trimEnd isBlank x.1, none, true, opened, x.2⟩

/-- The target at the front of the parameters. In `url()` an argument with quotes that the bracket
does not follow is read as one without. -/
def rawTarget? (params : Text) : Option RawTarget :=
  match afterWord? "url(".toList params with
  | some inner =>
    let opened := 4 + (Text.leading isBlank inner).length
    match Text.trimStart isBlank inner with
    | q :: r =>
      if isQuote q then
        match quotedArgument? q r with
        | some (raw, rest) => some ⟨raw, some q, true, opened + 1, rest⟩
        | none => bareArgument? opened (q :: r)
      else bareArgument? opened (q :: r)
    | [] => none
  | none =>
    match params with
    | q :: r =>
      if isQuote q then (Text.cutAt (· == q) r).map fun x => ⟨x.1, some q, false, 1, x.2⟩
      else none
    | [] => none

/-- Whether a word may end in front of the text. -/
def atBoundary : Text → Bool
  | [] => true
  | c :: _ => isBlank c

/-- The layer at the front of the conditions, if there is one, and the rest. -/
def takeLayer (s : Text) : Option Text × Text :=
  match afterWord? "layer".toList s with
  | none => (none, s)
  | some r =>
    let named := match r with
      | '(' :: inner =>
        match Text.cutAt (· == ')') inner with
        | some (name, rest) =>
          if atBoundary rest then some (Text.trim isBlank name, Text.trim isBlank rest) else none
        | none => none
      | _ => none
    match named with
    | some (name, rest) => (some name, rest)
    | none => if atBoundary r then (some [], Text.trim isBlank r) else (none, s)

/-- The text up to the bracket that closes one opened in front of it, and the text after that
bracket. Brackets in quotes do not count. -/
def closedArgument? : Option Char → Nat → Text → Option (Text × Text)
  | _, _, [] => none
  | some q, depth, c :: r =>
    if c = q then Text.consPart c (closedArgument? none depth r)
    else Text.consPart c (closedArgument? (some q) depth r)
  | none, depth, c :: r =>
    if isQuote c then Text.consPart c (closedArgument? (some c) depth r)
    else if c = '(' then Text.consPart c (closedArgument? none (depth + 1) r)
    else if c = ')' then
      match depth with
      | 0 => some ([], r)
      | d + 1 => Text.consPart c (closedArgument? none d r)
    else Text.consPart c (closedArgument? none depth r)

/-- The condition on supported features at the front of the text, if there is one, and the rest. -/
def takeSupports (s : Text) : Option Text × Text :=
  match afterWord? "supports(".toList s with
  | none => (none, s)
  | some r =>
    match closedArgument? none 0 r with
    | some (condition, rest) => (some (Text.trim isBlank condition), Text.trim isBlank rest)
    | none => (none, s)

/-- Decodes the parameters of an import. -/
def decode? (params : Text) (origin : Option Text) : Option Import :=
  match rawTarget? params with
  | none => none
  | some t =>
    let (layer, rest) := takeLayer (Text.trim isBlank t.rest)
    let (supports, media) := takeSupports rest
    some
      { target := Text.trim isBlank t.raw
        quote := t.quote
        inUrl := t.inUrl
        media, layer, supports, origin
        start := t.start
        stop := t.start + t.raw.length }

/-- Decodes a node; nothing comes of a node that is not an `@import` without a block, or whose
parameters have no target. -/
def ofNode? (n : Node) (origin : Option Text) : Option Import :=
  match n with
  | .statement _ h _ => if h.name.lower = "import".toList then decode? h.params origin else none
  | _ => none

theorem ofNode?_eq_some_iff {n : Node} {origin : Option Text} {d : Import} :
    ofNode? n origin = some d ↔ ∃ before h semicolon, n = .statement before h semicolon ∧
      h.name.lower = "import".toList ∧ decode? h.params origin = some d := by
  cases n with
  | statement before h semicolon =>
    rw [ofNode?]
    constructor
    · intro hd
      split at hd
      · exact ⟨before, h, semicolon, rfl, by assumption, hd⟩
      · cases hd
    · rintro ⟨_, _, _, ⟨⟩, hname, hd⟩
      rwa [if_pos hname]
  | _ => simp [ofNode?]

/-- Whether the import applies under a condition only. -/
def hasConditions (d : Import) : Bool := !d.media.isEmpty || d.layer.isSome || d.supports.isSome

/-- The parameters with the raw target replaced. -/
def retargeted (d : Import) (params url : Text) : Text :=
  params.take d.start ++ url ++ params.drop d.stop

/-- The import with another target. -/
def withTarget (d : Import) (url : Text) : Import :=
  { d with target := url, stop := d.start + url.length }

/-- An import with the head of the at-rule that it was read from. One that was not read has none. -/
structure Held where
  directive : Import
  head : Option AtHead := none

/-- The wording for an import without an at-rule. -/
def detachedMessage : Text := "directive is not attached to an at-rule".toList

/-- Gives an import another target, in its at-rule too. There must be one. -/
def Held.retarget? (x : Held) (url : Text) : Option Held :=
  x.head.map fun h =>
    { directive := x.directive.withTarget url
      head := some { h with params := x.directive.retargeted h.params url } }

/-- The imports in a list of nodes, at any depth, with the node of each. -/
def findAll (ns : List Node) (origin : Option Text) : List (Import × Node) :=
  (Node.walkAll ns).filterMap fun n => (ofNode? n origin).map fun d => (d, n)

theorem mem_findAll {d : Import} {n : Node} {ns : List Node} {origin : Option Text} :
    (d, n) ∈ findAll ns origin ↔ n ∈ Node.walkAll ns ∧ ofNode? n origin = some d := by
  simp only [findAll, List.mem_filterMap, Option.map_eq_some_iff, Prod.mk.injEq]
  constructor
  · rintro ⟨m, hm, d', hd, rfl, rfl⟩
    exact ⟨hm, hd⟩
  · rintro ⟨hn, hd⟩
    exact ⟨n, hn, d, hd, rfl, rfl⟩

end Import

end StyleSplice
