import StyleSplice.Import.Directive
import StyleSplice.Url.Target

/-!
# References in declaration values

A value refers to other files by `url()` and by the strings in an `image-set()`. A reference is
found with its place, so that it can be replaced in its quotes.
-/

namespace StyleSplice

/-- A reference in a value. The address stands in the value from `start` up to `stop`. -/
structure AssetRef where
  /-- The reference as it is written, with quotes and function. -/
  raw : Text
  url : Text
  quote : Option Char
  start : Nat
  stop : Nat
deriving DecidableEq, Repr, Inhabited

namespace AssetRef

/-- Whether the reference is relative and leads out of the document: not empty, without a scheme,
and more than a fragment. -/
def isAnchorable (a : AssetRef) : Bool :=
  !a.url.isEmpty && !isAbsolute a.url && a.url.head? != some '#'

/-- The characters of an address without quotes. -/
def isBareChar (c : Char) : Bool := c != ')' && !isQuote c && !isBlank c

/-- The reference in a `url()` at the front of a text, and the text after it. `at₀` is the place of
the text in the value. -/
def urlCall? (at₀ : Nat) (s : Text) : Option (AssetRef × Text) :=
  match afterWord? "url(".toList s with
  | none => none
  | some inner =>
    let arg := Text.trimStart isBlank inner
    let start := at₀ + 4 + (Text.leading isBlank inner).length
    let found (url : Text) (quote : Option Char) (start : Nat) (rest : Text) :=
      (⟨s.take (s.length - rest.length), url, quote, start, start + url.length⟩, rest)
    let bare :=
      let url := arg.takeWhile isBareChar
      (Import.afterClosing? (arg.dropWhile isBareChar)).map (found url none start)
    match arg with
    | q :: r =>
      if isQuote q then
        match Import.quotedArgument? q r with
        | some (url, rest) => some (found url (some q) (start + 1) rest)
        | none => bare
      else bare
    | [] => none

/-- The references in the `url()` calls of a text, and the places of those calls. A call is looked
for after the end of the one before. `skip` counts the characters of a call that was found. -/
def urlCalls : Nat → Nat → Text → List (AssetRef × Nat × Nat)
  | _, _, [] => []
  | at₀, skip + 1, _ :: r => urlCalls (at₀ + 1) skip r
  | at₀, 0, c :: r =>
    match urlCall? at₀ (c :: r) with
    | some (ref, _) =>
      (ref, at₀, at₀ + ref.raw.length) :: urlCalls (at₀ + 1) (ref.raw.length - 1) r
    | none => urlCalls (at₀ + 1) 0 r

/-- The text after the opening bracket of an `image-set()` at the front. -/
def imageSet? (s : Text) : Option Text :=
  match afterWord? "-webkit-image-set(".toList s with
  | some r => some r
  | none => afterWord? "image-set(".toList s

/-- How many characters stand before the bracket that closes one opened in front of the text. Every
bracket counts; without a closing one the whole text is taken. -/
def closedLength : Nat → Text → Nat
  | _, [] => 0
  | depth, c :: r =>
    if c = '(' then closedLength (depth + 1) r + 1
    else if c = ')' then
      match depth with
      | 0 => 0
      | d + 1 => closedLength d r + 1
    else closedLength depth r + 1

/-- The strings of a text, from left to right. `skip` counts the characters of a string that was
found. -/
def strings : Nat → Nat → Text → List AssetRef
  | _, _, [] => []
  | at₀, skip + 1, _ :: r => strings (at₀ + 1) skip r
  | at₀, 0, c :: r =>
    if isQuote c then
      match Text.cutAt (· == c) r with
      | some (url, _) =>
        ⟨c :: url ++ [c], url, some c, at₀ + 1, at₀ + 1 + url.length⟩ ::
          strings (at₀ + 1) (url.length + 1) r
      | none => strings (at₀ + 1) 0 r
    else strings (at₀ + 1) 0 r

/-- The strings in every `image-set()` of a text. One inside another is read on its own as well. -/
def imageSetStrings : Nat → Nat → Text → List AssetRef
  | _, _, [] => []
  | at₀, skip + 1, _ :: r => imageSetStrings (at₀ + 1) skip r
  | at₀, 0, c :: r =>
    match imageSet? (c :: r) with
    | some inner =>
      let opened := r.length + 1 - inner.length
      strings (at₀ + opened) 0 (inner.take (closedLength 0 inner)) ++
        imageSetStrings (at₀ + 1) (opened - 1) r
    | none => imageSetStrings (at₀ + 1) 0 r

/-- Puts a reference behind those that do not start later. -/
def insert (a : AssetRef) : List AssetRef → List AssetRef
  | [] => [a]
  | b :: rest => if b.start ≤ a.start then b :: insert a rest else a :: b :: rest

/-- Orders references by their places; those of one place keep their order. -/
def sortByStart (refs : List AssetRef) : List AssetRef := refs.foldl (fun sorted a => insert a sorted) []

/-- The references of a value in the order of their places. A string counts only outside the `url()`
calls. -/
def findAll (value : Text) : List AssetRef :=
  let calls := urlCalls 0 0 value
  let covered (a : AssetRef) := calls.any fun x => x.2.1 < a.start && a.start ≤ x.2.2
  sortByStart (calls.map Prod.fst ++ (imageSetStrings 0 0 value).filter fun a => !covered a)

end AssetRef

end StyleSplice
