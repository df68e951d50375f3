/-!
# Texts and their cuts

A text is the list of its characters, so every length, position and column counts characters.
The readers of this library are made of a few cuts: blanks off either end, the part before a
character, a word at the front. Beside each cut stands the law that nothing is lost.
-/

namespace StyleSplice

/-- A text is the list of its characters. -/
abbrev Text := List Char

namespace Text

/-- The text as a string, for messages and output. -/
def str (s : Text) : String := String.ofList s

/-- The text without the leading characters that satisfy `p`. -/
def trimStart (p : Char → Bool) (s : Text) : Text := s.dropWhile p

/-- The leading characters that satisfy `p`. -/
def leading (p : Char → Bool) (s : Text) : Text := s.takeWhile p

/-- The text without the trailing characters that satisfy `p`. -/
def trimEnd (p : Char → Bool) : Text → Text
  | [] => []
  | c :: r =>
    match trimEnd p r with
    | [] => if p c then [] else [c]
    | t => c :: t

/-- The trailing characters that satisfy `p`. -/
def trailing (p : Char → Bool) (s : Text) : Text := s.drop (trimEnd p s).length

/-- The text without the characters at either end that satisfy `p`. -/
def trim (p : Char → Bool) (s : Text) : Text := trimEnd p (trimStart p s)

theorem leading_append_trimStart (p : Char → Bool) (s : Text) :
    leading p s ++ trimStart p s = s := List.takeWhile_append_dropWhile

theorem trimEnd_isPrefix (p : Char → Bool) (s : Text) : trimEnd p s <+: s := by
  induction s with
  | nil => simp [trimEnd]
  | cons c r ih =>
    unfold trimEnd
    split
    · split
      · exact List.nil_prefix
      · exact ⟨r, rfl⟩
    · exact (List.prefix_cons_inj c).2 ih

theorem trimEnd_append_trailing (p : Char → Bool) (s : Text) :
    trimEnd p s ++ trailing p s = s :=
  List.prefix_iff_eq_append.1 (trimEnd_isPrefix p s)

/-- Puts a character in front of the first of two parts. -/
def consPart (c : Char) : Option (Text × Text) → Option (Text × Text)
  | some (front, back) => some (c :: front, back)
  | none => none

@[grind =]
theorem consPart_eq_some_iff {c : Char} {x : Option (Text × Text)} {front back : Text} :
    consPart c x = some (front, back) ↔ ∃ u, front = c :: u ∧ x = some (u, back) := by
  match x with
  | some (u, b) => simp [consPart]; grind
  | none => simp [consPart]

/-- The parts before and after the first character that satisfies `p`. -/
def cutAt (p : Char → Bool) : Text → Option (Text × Text)
  | [] => none
  | c :: r => if p c then some ([], r) else consPart c (cutAt p r)

/-- The parts before and after the last character that satisfies `p`. -/
def cutLast (p : Char → Bool) : Text → Option (Text × Text)
  | [] => none
  | c :: r =>
    match cutLast p r with
    | some x => some (c :: x.1, x.2)
    | none => if p c then some ([], r) else none

/-- Whether `w` stands somewhere in the text. -/
def hasPart (w : Text) : Text → Bool
  | [] => w.isEmpty
  | c :: r => w.isPrefixOf (c :: r) || hasPart w r

/-- The rest of the text after the word `w` at its front. -/
def after? (w : Text) : Text → Option Text := fun s =>
  if w.isPrefixOf s then some (s.drop w.length) else none

/-- The text without every character that satisfies `p`. -/
def without (p : Char → Bool) (s : Text) : Text := s.filter fun c => !p c

/-- The texts one after the other, with `sep` between neighbours. -/
def joinWith (sep : Text) (parts : List Text) : Text := List.intercalate sep parts

/-- A whole number in decimal digits, with a minus sign when it is negative. -/
def ofInt (n : Int) : Text := (toString n).toList

/-- A natural number in decimal digits. -/
def ofNat (n : Nat) : Text := (toString n).toList

end Text

end StyleSplice
