import StyleSplice.Url.Join
import StyleSplice.Text.Case

/-!
# Where an import points

A target is remote when it names a network location, by itself or together with the address of the
sheet that holds it. Any other target belongs to the file system and stays as it is.
-/

namespace StyleSplice

/-- What the target of an import refers to. -/
inductive Target
  /-- A location on the network, with its full address. -/
  | remote (url : Text)
  | localPath (path : Text)
deriving DecidableEq, Repr

/-- The characters of a scheme after the first, when case is ignored. -/
def isSchemePart (c : Char) : Bool :=
  isAnyLetter c || c.isDigit || c == '+' || c == '.' || c == '-'

/-- The text after a scheme and its colon. -/
def afterScheme? : Text → Option Text
  | c :: r =>
    if isAnyLetter c then
      match r.dropWhile isSchemePart with
      | ':' :: rest => some rest
      | _ => none
    else none
  | [] => none

/-- Whether the text starts with two slashes. -/
def startsSlashed (s : Text) : Bool := "//".toList.isPrefixOf s

/-- Whether the reference has a scheme. -/
def isAbsolute (reference : Text) : Bool := (afterScheme? reference).isSome

/-- Whether the target names a location on the network: two slashes, after a scheme or none. -/
def isRemote (target : Text) : Bool :=
  startsSlashed target || ((afterScheme? target).map startsSlashed).getD false

/-- The reference as seen from a document at `origin`. One that has a scheme stays as it is. -/
def resolveReference (reference origin : Text) : Except UrlFault Text :=
  if isAbsolute reference then .ok reference else UrlParts.join origin reference

/-- The address of a document, if it has one that is not empty. -/
def known (origin : Option Text) : Option Text := origin.filter fun o => !o.isEmpty

/-- Decides what a target refers to. A target without a scheme is remote if its document came from
the web. -/
def Target.classify (target : Text) (origin : Option Text) (defaultScheme : Text) :
    Except UrlFault Target :=
  if isRemote target then
    if startsSlashed target then
      match (known origin).filter isRemote with
      | some o => (resolveReference target o).map .remote
      | none => .ok (.remote (defaultScheme ++ ':' :: target))
    else .ok (.remote target)
  else if isAbsolute target then .ok (.localPath target)
  else
    match known origin with
    | none => .ok (.localPath target)
    | some o =>
      match UrlParts.parse o with
      | .error f => .error f
      | .ok parts =>
        if parts.scheme = "http".toList ∨ parts.scheme = "https".toList then
          (resolveReference target o).map .remote
        else .ok (.localPath target)

/-- A local target stays as it is. -/
theorem Target.eq_of_classify {target scheme path : Text} {origin : Option Text}
    (h : classify target origin scheme = .ok (.localPath path)) : path = target := by
  have hmap : ∀ x : Except UrlFault Text, x.map Target.remote ≠ .ok (.localPath path) := by
    intro x hx
    cases x <;> cases hx
  unfold classify at h
  split at h
  · split at h
    · split at h
      · exact absurd h (hmap _)
      · cases h
    · cases h
  · split at h
    · cases h
      rfl
    · split at h
      · cases h
        rfl
      · split at h
        · cases h
        · split at h
          · exact absurd h (hmap _)
          · cases h
            rfl

end StyleSplice
