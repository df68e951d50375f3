import StyleSplice.Sheet.Fault

/-!
# Spans of raw text

A span runs up to the first stop character that is outside strings, comments, escapes and
brackets. A string may hold escapes; a closing bracket without an opening one is ignored.
-/

namespace StyleSplice

/-- White space between the parts of a style sheet. -/
def isGap (c : Char) : Bool :=
  c == ' ' || c == '\t' || c == '\n' || c == '\r' || c == '\x0c' || c == '\ufeff'

/-- What may stand in front of a node: white space and stray semicolons. -/
def isTrivia (c : Char) : Bool := isGap c || c == ';'

/-- The quotes of a string. -/
def isQuote (c : Char) : Bool := c == '\x22' || c == '\x27'

/-- The characters that end the head of a node. -/
def isStop (c : Char) : Bool := c == ';' || c == '{' || c == '}'

/-- What a character of a span is in. A string or comment remembers the text from its opening
character on, where its mistake is if it does not end. -/
inductive Inside
  | plain
  /-- Just after a backslash. -/
  | escape
  | string (quote : Char) (opened : Text)
  /-- Just after a backslash in a string. -/
  | stringEscape (quote : Char) (opened : Text)
  | comment (opened : Text)
deriving DecidableEq, Repr

/-- Puts a character in front of a span. -/
def consSpan (c : Char) : Except SheetFault (Text × Text) → Except SheetFault (Text × Text)
  | .ok (span, rest) => .ok (c :: span, rest)
  | .error f => .error f

/-- The span at the front of a text and the rest of the text, which is empty or starts with a stop
character. `depth` counts the open brackets. -/
def spanFrom : Inside → Nat → Text → Except SheetFault (Text × Text)
  | .plain, _, [] => .ok ([], [])
  | .escape, _, [] => .ok ([], [])
  | .string _ opened, _, [] => .error ⟨.unclosedString, opened⟩
  | .stringEscape _ opened, _, [] => .error ⟨.unclosedString, opened⟩
  | .comment opened, _, [] => .error ⟨.unclosedComment, opened⟩
  | .plain, depth, '/' :: '*' :: r =>
    consSpan '/' (consSpan '*' (spanFrom (.comment ('/' :: '*' :: r)) depth r))
  | .plain, depth, c :: r =>
    if isQuote c then consSpan c (spanFrom (.string c (c :: r)) depth r)
    else if c = '\\' then consSpan c (spanFrom .escape depth r)
    else if c = '(' ∨ c = '[' then consSpan c (spanFrom .plain (depth + 1) r)
    else if c = ')' ∨ c = ']' then consSpan c (spanFrom .plain (depth - 1) r)
    else if depth = 0 ∧ isStop c then .ok ([], c :: r)
    else consSpan c (spanFrom .plain depth r)
  | .escape, depth, c :: r => consSpan c (spanFrom .plain depth r)
  | .string q opened, depth, c :: r =>
    if c = '\\' then consSpan c (spanFrom (.stringEscape q opened) depth r)
    else if c = q then consSpan c (spanFrom .plain depth r)
    else consSpan c (spanFrom (.string q opened) depth r)
  | .stringEscape q opened, depth, c :: r => consSpan c (spanFrom (.string q opened) depth r)
  | .comment _, depth, '*' :: '/' :: r => consSpan '*' (consSpan '/' (spanFrom .plain depth r))
  | .comment opened, depth, c :: r => consSpan c (spanFrom (.comment opened) depth r)

/-- The span at the front of a text, and the rest. -/
def span (s : Text) : Except SheetFault (Text × Text) := spanFrom .plain 0 s

@[grind =]
theorem consSpan_eq_ok_iff {c : Char} {x : Except SheetFault (Text × Text)} {t r : Text} :
    consSpan c x = .ok (t, r) ↔ ∃ u, t = c :: u ∧ x = .ok (u, r) := by
  match x with
  | .ok (u, r') => simp [consSpan]; grind
  | .error f => simp [consSpan]

/-- A span and the rest make up the text. -/
theorem spanFrom_append {mode : Inside} {depth : Nat} {s t r : Text}
    (h : spanFrom mode depth s = .ok (t, r)) : t ++ r = s := by
  fun_induction spanFrom mode depth s generalizing t r <;> grind

theorem span_append {s t r : Text} (h : span s = .ok (t, r)) : t ++ r = s := spanFrom_append h

/-- The body of a comment whose opening has been read, and the text after its end. -/
def commentBody? : Text → Option (Text × Text)
  | [] => none
  | '*' :: '/' :: r => some ([], r)
  | c :: r => (commentBody? r).map fun x => (c :: x.1, x.2)

theorem commentBody?_append {s body r : Text} (h : commentBody? s = some (body, r)) :
    body ++ '*' :: '/' :: r = s := by
  fun_induction commentBody? s generalizing body r with
  | case1 => cases h
  | case2 => simp_all
  | case3 c s _ ih =>
    obtain ⟨⟨b, r'⟩, hb, hx⟩ := Option.map_eq_some_iff.1 h
    simp only [Prod.mk.injEq] at hx
    obtain ⟨rfl, rfl⟩ := hx
    simp [ih hb]

end StyleSplice
