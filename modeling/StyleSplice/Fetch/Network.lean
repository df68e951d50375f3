import StyleSplice.Report.Fault
import StyleSplice.Data.Value

/-!
# Networks

A network answers requests for pages. Here it is a function, so a page has one answer for as long as
a run lasts. A table of pages is a network.
-/

namespace StyleSplice

/-- What a network says to a request. -/
inductive Answer
  | body (text : Text)
  /-- The page could not be had. -/
  | failure (f : Fault)
  /-- The request broke down in a way that no caller expects. -/
  | crash (message : Text)
  /-- Nothing, until the run is aborted. -/
  | silence
deriving DecidableEq, Repr

/-- A network. -/
structure Network where
  answer : Text → Answer
  /-- A bound for the number of its sheets that can lie on one path of imports. -/
  size : Nat
  /-- What a silent page fails with after somebody has called off the waiting for it, if it does not
  stay silent for good. -/
  lastWord : Text → Option Fault := fun _ => none

/-- Request headers, or any other texts with names. -/
abbrev Headers := List (Text × Text)

/-- A page of a table. -/
inductive Page
  | body (text : Text)
  | status (code : Int)
  | network (message : Text)
  | timedOut (message : Text)
  | crash (message : Text)
  /-- One of two bodies, by whether the user agent holds a word. -/
  | byAgent (word yes no : Text)
  /-- The value of a request header, as a comment. -/
  | echo (header : Text)
  | silence
deriving DecidableEq, Repr

/-- The answer of a page at an address to a request with headers. -/
def Page.answer (headers : Headers) (url : Text) : Page → Answer
  | .body text => .body text
  | .status code => .failure (.ofStatus code url)
  | .network message => .failure (.network message url)
  | .timedOut message => .failure (.timedOut message url)
  | .crash message => .crash message
  | .byAgent word yes no =>
    let agent := (field? "User-Agent".toList headers).getD []
    .body (if Text.hasPart word agent then yes else no)
  | .echo header =>
    .body ("/* ".toList ++ (field? header headers).getD ['-'] ++ " */".toList)
  | .silence => .silence

/-- The network of a table of pages, asked with the same headers every time. An address that is not
in the table is not found. -/
def Network.ofPages (headers : Headers) (pages : List (Text × Page)) : Network where
  answer url := ((field? url pages).getD (.status 404)).answer headers url
  size := pages.length

/-- A table answers with one of its pages, or says that there is none. -/
theorem Network.answer_ofPages (headers : Headers) (pages : List (Text × Page)) (url : Text) :
    (∃ page, (url, page) ∈ pages ∧
      (ofPages headers pages).answer url = page.answer headers url) ∨
      (ofPages headers pages).answer url = .failure (.ofStatus 404 url) := by
  have ha : (ofPages headers pages).answer url =
      ((field? url pages).getD (.status 404)).answer headers url := rfl
  cases hp : field? url pages with
  | none =>
    rw [hp, Option.getD_none, Page.answer] at ha
    exact .inr ha
  | some page =>
    rw [hp, Option.getD_some] at ha
    obtain ⟨⟨u, page⟩, hx, rfl⟩ := Option.map_eq_some_iff.1 hp
    have hu : u = url := by simpa using List.find?_some hx
    exact .inl ⟨page, hu ▸ List.mem_of_find?_eq_some hx, ha⟩

/-- No page stays silent. -/
def Network.Responds (net : Network) : Prop := ∀ url, net.answer url ≠ .silence

/-- A table without silent pages always answers. -/
theorem Network.responds_ofPages {headers : Headers} {pages : List (Text × Page)}
    (h : ∀ x ∈ pages, x.2 ≠ .silence) : (ofPages headers pages).Responds := by
  intro url hs
  rcases answer_ofPages headers pages url with ⟨page, hmem, ha⟩ | ha
  · rw [ha] at hs
    cases page with
    | silence => exact h _ hmem rfl
    | _ => cases hs
  · rw [ha] at hs
    cases hs

end StyleSplice
