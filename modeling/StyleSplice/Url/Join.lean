import StyleSplice.Url.Split

/-!
# References against a base

A reference is resolved against the URL of the document that holds it: what the reference leaves
out comes from the base, and the dot segments of a relative path move in the tree of the base.
-/

namespace StyleSplice

namespace UrlParts

/-- Schemes whose references can be relative. -/
def relativeSchemes : List Text :=
  ["", "ftp", "http", "gopher", "nntp", "imap", "wais", "file", "https", "shttp", "mms",
    "prospero", "rtsp", "rtspu", "sftp", "svn", "svn+ssh", "ws", "wss"].map String.toList

/-- Schemes whose URLs have an authority. -/
def authoritySchemes : List Text :=
  ["", "ftp", "http", "gopher", "nntp", "telnet", "imap", "wais", "file", "mms", "https", "shttp",
    "snews", "prospero", "rtsp", "rtspu", "rsync", "svn", "svn+ssh", "sftp", "nfs", "git",
    "git+ssh", "ws", "wss"].map String.toList

/-- Schemes whose last path segment can have parameters. -/
def parameterSchemes : List Text :=
  ["", "ftp", "hdl", "prospero", "http", "imap", "https", "shttp", "rtsp", "rtspu", "sip", "sips",
    "mms", "sftp", "tel"].map String.toList

/-- The path without the parameters of its last segment, and those parameters. -/
def splitParameters (u : UrlParts) : Text × Text :=
  if parameterSchemes.contains u.scheme then
    match Text.cutLast (· == '/') u.path with
    | some (front, last) =>
      let (last, parameters) := cutMark ';' last
      (front ++ '/' :: last, parameters)
    | none => cutMark ';' u.path
  else (u.path, [])

/-- Writes the parts as one text, with the parameters of the last segment in a part of their own. -/
def write (u : UrlParts) (parameters : Text) : Text :=
  let path := if parameters.isEmpty then u.path else u.path ++ ';' :: parameters
  let slashes := "//".toList
  let hasAuthority :=
    !u.authority.isEmpty ||
      (!u.scheme.isEmpty && authoritySchemes.contains u.scheme && !slashes.isPrefixOf path)
  let path :=
    if hasAuthority then
      let rooted := if !path.isEmpty && path.head? != some '/' then '/' :: path else path
      slashes ++ u.authority ++ rooted
    else path
  (if u.scheme.isEmpty then [] else u.scheme ++ [':']) ++ path ++
    (if u.query.isEmpty then [] else '?' :: u.query) ++
    (if u.fragment.isEmpty then [] else '#' :: u.fragment)

/-- The list without its empty members, its first and last member kept in any case. -/
def dropInnerEmpty : List Text → List Text
  | [] => []
  | [s] => [s]
  | s :: rest => s :: rest.dropLast.filter (fun t => !t.isEmpty) ++ rest.getLast?.toList

/-- The segments that a path passes through, last first, after `seen`. -/
def climb (seen : List Text) : List Text → List Text
  | [] => seen
  | s :: rest =>
    if s = "..".toList then climb (seen.drop 1) rest
    else if s = ".".toList then climb seen rest
    else climb (s :: seen) rest

/-- Whether a segment only moves in the tree. -/
def isDotSegment (s : Text) : Bool := s = ".".toList || s = "..".toList

/-- The path that the segments lead to. -/
def pathOf (segments : List Text) : Text :=
  let ended := (segments.getLast?.map isDotSegment).getD false
  let path := Text.joinWith ['/'] ((climb [] segments).reverse ++ if ended then [[]] else [])
  if path.isEmpty then ['/'] else path

/-- The path of a base followed by a relative path, or a path from the root. -/
def mergePath (base path : Text) : Text :=
  let own := path.splitOn '/'
  if path.head? = some '/' then pathOf own
  else
    let front := base.splitOn '/'
    let front := if front.getLast? = some [] then front else front.dropLast
    pathOf (dropInnerEmpty (front ++ own))

/-- The reference resolved against the base. -/
def join (base reference : Text) : Except UrlFault Text :=
  if base.isEmpty then .ok reference
  else if reference.isEmpty then .ok base
  else
    match parse base with
    | .error f => .error f
    | .ok b =>
      match parse reference b.scheme with
      | .error f => .error f
      | .ok r =>
        let (basePath, baseParameters) := b.splitParameters
        let (path, parameters) := r.splitParameters
        if r.scheme ≠ b.scheme ∨ !relativeSchemes.contains r.scheme then .ok reference
        else
          let hasAuthority := authoritySchemes.contains r.scheme
          if hasAuthority && !r.authority.isEmpty then .ok (write { r with path } parameters)
          else
            let authority := if hasAuthority then b.authority else r.authority
            if path.isEmpty && parameters.isEmpty then
              let query := if r.query.isEmpty then b.query else r.query
              .ok (write { r with authority, path := basePath, query } baseParameters)
            else
              .ok (write { r with authority, path := mergePath basePath path } parameters)

end UrlParts

end StyleSplice
