import StyleSplice.Fetch.Network
import StyleSplice.Text.Quoted

/-!
# Headers on the wire

What goes over the wire beside a page must be in ASCII. The names of headers count without their case;
headers of one name are sent as one, with commas between the values.
-/

namespace StyleSplice

/-- A text that cannot go over the wire: where it first leaves ASCII, and the characters up to where
it comes back. -/
structure BeyondAscii where
  start : Nat
  run : Text
deriving DecidableEq, Repr

namespace BeyondAscii

/-- Whether a character is in ASCII. -/
def isIn (c : Char) : Bool := c.toNat < 128

/-- Checks that a text is in ASCII. -/
def check (s : Text) : Except BeyondAscii Unit :=
  match s.dropWhile isIn with
  | [] => .ok ()
  | rest => .error ⟨(s.takeWhile isIn).length, rest.takeWhile fun c => !isIn c⟩

/-- The wording of the fault. -/
def message (f : BeyondAscii) : Text :=
  let place := match f.run with
    | [c] => "character '".toList ++ escapeCode c ++ "' in position ".toList ++ Text.ofNat f.start
    | run =>
      "characters in position ".toList ++ Text.ofNat f.start ++ '-' ::
        Text.ofNat (f.start + run.length - 1)
  "'ascii' codec can't encode ".toList ++ place ++ ": ordinal not in range(128)".toList

theorem check_eq_ok_iff {s : Text} : check s = .ok () ↔ s.all isIn := by
  induction s with
  | nil => simp [check]
  | cons c r ih =>
    cases h : isIn c
    · simp [check, h]
    · have hw : ((c :: r).dropWhile isIn) = r.dropWhile isIn := by simp [h]
      simp only [List.all_cons, h, Bool.true_and, ← ih, check, hw]
      cases r.dropWhile isIn <;> simp

end BeyondAscii

namespace Header

/-- Checks a list of headers, each name before its value. -/
def check : Headers → Except BeyondAscii Unit
  | [] => .ok ()
  | (name, value) :: rest => do
    BeyondAscii.check name
    BeyondAscii.check value
    check rest

/-- The headers with their names in small letters. -/
def lowered (hs : Headers) : Headers := hs.map fun h => (h.1.map Char.toLower, h.2)

/-- Whether there is a header of the name. -/
def has (name : Text) (hs : Headers) : Bool := hs.any fun h => h.1 == name

/-- The headers `own`, where those of `extra` take the place of all of the same name. -/
def override (own extra : Headers) : Headers := own.filter (fun h => !has h.1 extra) ++ extra

/-- The values of the headers of one name. -/
def values (name : Text) (hs : Headers) : List Text :=
  (hs.filter fun h => h.1 == name).map Prod.snd

/-- The headers as they are sent, those of one name together. -/
def joined (hs : Headers) : Headers :=
  (hs.map Prod.fst).eraseDups.map fun name => (name, Text.joinWith ", ".toList (values name hs))

end Header

end StyleSplice
